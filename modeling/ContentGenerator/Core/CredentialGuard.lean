import ContentGenerator.Core.CacheStore

/-!
# The guard against credentials

`assert_no_credentials` looks for a marker among the lower-cased keys of an object but reads the value under the
marker itself. So it refuses exactly the values that hold a credential under a marker as it is spelled in the list
(`assertNoCredentials_eq_ok_iff`), and a credential under another spelling is stored.

Main result: `no_credential_stored_iff`, when a value that `set_json` stores holds no credential.
-/

namespace ContentGenerator.Core

open Lib List Option
open JsonObject (getTruthy)

variable {value : Json}

/-- Some object in the value, at any depth, has a truthy value under one of the keys. -/
def HoldsUnder (keys : String → Prop) (value : Json) : Prop :=
  ∃ fields key, Json.Inside value (.obj fields) ∧ keys key ∧ (getTruthy fields key).isSome

/-- The value holds a credential: a truthy value under a key whose lower case is a marker. -/
def HoldsCredential (value : Json) : Prop := HoldsUnder (pyLower · ∈ credentialMarkers) value

def HoldsPlainCredential (value : Json) : Prop := HoldsUnder (· ∈ credentialMarkers) value

/-- The value holds a credential under a key that is a marker only in lower case. -/
def HoldsRespelledCredential (value : Json) : Prop :=
  HoldsUnder (fun key ↦ pyLower key ∈ credentialMarkers ∧ key ∉ credentialMarkers) value

/-- The markers are in lower case. -/
theorem pyLower_marker : ∀ marker ∈ credentialMarkers, pyLower marker = marker := by
  decide +kernel

theorem HoldsUnder.mono {keys keys' : String → Prop} (hkeys : ∀ key, keys key → keys' key)
    (h : HoldsUnder keys value) : HoldsUnder keys' value := by
  obtain ⟨fields, key, hinside, hkey, htruthy⟩ := h
  exact ⟨fields, key, hinside, hkeys key hkey, htruthy⟩

/-- A credential is under a marker or under another spelling of one. -/
theorem holdsCredential_iff :
    HoldsCredential value ↔ HoldsPlainCredential value ∨ HoldsRespelledCredential value := by
  constructor
  · rintro ⟨fields, key, hinside, hkey, htruthy⟩
    by_cases hplain : key ∈ credentialMarkers
    · exact .inl ⟨fields, key, hinside, hplain, htruthy⟩
    · exact .inr ⟨fields, key, hinside, ⟨hkey, hplain⟩, htruthy⟩
  · rintro (hplain | hrespelled)
    · refine hplain.mono fun key hkey ↦ ?_
      rw [pyLower_marker key hkey]
      exact hkey
    · exact hrespelled.mono fun _ hkey ↦ hkey.1

/-- An object passes when nothing truthy is under a marker. A marker that has a value is among the lower-cased keys
itself, so the first test of the loop is implied by the second. -/
theorem checkMarkers_eq_ok_iff {fields : JsonObject} :
    checkMarkers fields = .ok () ↔ ∀ marker ∈ credentialMarkers, getTruthy fields marker = none := by
  have hlowered : ∀ marker ∈ credentialMarkers, (getTruthy fields marker).isSome →
      fields.any (fun field ↦ pyLower field.1 = marker) := by
    intro marker hmarker htruthy
    obtain ⟨value, hvalue⟩ := isSome_iff_exists.mp htruthy
    obtain ⟨field, hfield, -⟩ := map_eq_some_iff.mp (filter_eq_some_iff.mp hvalue).1
    have hkey : field.1 = marker := by simpa using find?_some hfield
    refine List.any_eq_true.mpr ⟨field, mem_of_find?_eq_some hfield, decide_eq_true ?_⟩
    rw [hkey, pyLower_marker marker hmarker]
  unfold checkMarkers
  cases hfind : credentialMarkers.find? fun marker ↦
      fields.any (fun field ↦ pyLower field.1 = marker) && (getTruthy fields marker).isSome with
  | some marker =>
    refine iff_of_false (by simp) fun hall ↦ ?_
    have hfound := find?_some hfind
    have htruthy := (Bool.and_eq_true_iff.mp hfound).2
    rw [hall marker (mem_of_find?_eq_some hfind)] at htruthy
    exact absurd htruthy Bool.false_ne_true
  | none =>
    refine iff_of_true rfl fun marker hmarker ↦ ?_
    by_contra hsome
    have htruthy := isSome_iff_ne_none.mpr hsome
    exact find?_eq_none.mp hfind marker hmarker (Bool.and_eq_true_iff.mpr ⟨hlowered marker hmarker htruthy, htruthy⟩)

/-- The guard refuses the credentials under a marker, and nothing else. -/
theorem assertNoCredentials_eq_ok_iff :
    assertNoCredentials value = .ok () ↔ ¬ HoldsPlainCredential value := by
  unfold assertNoCredentials
  rw [Json.visit_ok_iff]
  constructor
  · rintro hpasses ⟨fields, key, hinside, hkey, htruthy⟩
    rw [checkMarkers_eq_ok_iff.mp (hpasses fields hinside) key hkey] at htruthy
    exact absurd htruthy Bool.false_ne_true
  · intro hplain fields hinside
    refine checkMarkers_eq_ok_iff.mpr fun marker hmarker ↦ ?_
    by_contra hsome
    exact hplain ⟨fields, marker, hinside, hmarker, isSome_iff_ne_none.mpr hsome⟩

variable {env : CacheEnv} {redis : Redis} {now draw : ℕ} {key : String} {value : Json} {policy : FillPolicy}
  {ttlSeconds : Option ℤ}

theorem setJson_stored_iff :
    (setJson env redis now draw key value policy ttlSeconds).2 ↔
      (policy.forbidCredentials → ¬ HoldsPlainCredential value) := by
  unfold setJson
  rw [← assertNoCredentials_eq_ok_iff]
  split_ifs with hrefused
  · exact iff_of_false (by simp) fun hpasses ↦ hrefused.2 (hpasses hrefused.1)
  · refine iff_of_true rfl fun hforbid ↦ ?_
    by_contra hraises
    exact hrefused ⟨hforbid, hraises⟩

/-- Under a policy that forbids credentials, a value that is stored holds none exactly when it holds one under a
marker as it is spelled in the list, so that it is refused, or none under another spelling. -/
theorem no_credential_stored_iff (hforbid : policy.forbidCredentials = true) :
    ((setJson env redis now draw key value policy ttlSeconds).2 → ¬ HoldsCredential value) ↔
      HoldsPlainCredential value ∨ ¬ HoldsRespelledCredential value := by
  rw [setJson_stored_iff, holdsCredential_iff]
  have hforbids : (policy.forbidCredentials → ¬ HoldsPlainCredential value) ↔ ¬ HoldsPlainCredential value :=
    forall_prop_of_true hforbid
  rw [hforbids]
  tauto

/-- The settings of the tests, and a `float` that accepts no text. -/
def plainCacheEnv : CacheEnv where
  defaultTtlJitterSeconds := 0
  singleflightLockMs := 15000
  floatIsPast := fun _ _ ↦ none

def guardedPolicy : FillPolicy := { owner := "identity", ttlSeconds := 60 }

/-- A credential under a marker is refused, so the statement holds of it. -/
theorem plain_password_refused :
    guardedPolicy.forbidCredentials = true ∧
      ((setJson plainCacheEnv (fun _ ↦ none) 0 0 "user" (.obj [("password", .str "x")]) guardedPolicy none).2 →
        ¬ HoldsCredential (.obj [("password", .str "x")])) :=
  ⟨rfl, (no_credential_stored_iff rfl).mpr
    (.inl ⟨[("password", .str "x")], "password", .self _, by decide, by decide⟩)⟩

/-- The same password under a capital letter is stored. -/
theorem capitalised_password_stored :
    guardedPolicy.forbidCredentials = true ∧
      (setJson plainCacheEnv (fun _ ↦ none) 0 0 "user" (.obj [("Password", .str "x")]) guardedPolicy none).2 = true ∧
      HoldsCredential (.obj [("Password", .str "x")]) :=
  ⟨rfl, by decide +kernel, [("Password", .str "x")], "Password", .self _, by decide +kernel, by decide⟩

end ContentGenerator.Core

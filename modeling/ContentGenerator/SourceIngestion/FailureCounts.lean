import ContentGenerator.Lib.Play
import ContentGenerator.SourceIngestion.FetchRuns

/-!
# How failed fetches are counted

The failures of a source since its last live success, counted beside the database, against the columns of the
source. Main result: `failures_recorded`, the columns agree with the count along every run of calls whose
second transactions are all committed. A failure that finds nothing in the cache is not: the exception that
reports it takes back what has been recorded.
-/

namespace ContentGenerator.SourceIngestion

open Lib Lib.Action Workflows Function

variable {disableAfterFailures : ℤ}

/-- The call gets as far as the network. -/
def fetches (p : Platform) (call : IngestionCall) (db : Database) : Bool :=
  match (prepareIngestion p call db).1 with
  | .ok (.inl _) => true
  | _ => false

/-- The number of failed fetches after one more, and after a live success. -/
def IngestionCall.count (call : IngestionCall) (failures : ℕ) : ℕ :=
  match call.fetch with
  | .error _ => failures + 1
  | .ok _ => 0

/-- What is committed, and the number of failed fetches of each source since its last live success. -/
structure FetchHistory where
  db : Database
  failures : ℕ → ℕ

/-- One call of `run_ingestion_workflow`. -/
def FetchHistory.apply (p : Platform) (history : FetchHistory) (call : IngestionCall) : FetchHistory where
  db := (runIngestionWorkflow p call).final history.db
  failures :=
    if fetches p call history.db then
      update history.failures call.sourceId (call.count (history.failures call.sourceId))
    else history.failures

/-- The columns of a source with this many failed fetches since its last live success. -/
structure Source.Recorded (disableAfterFailures : ℤ) (failures : ℕ) (source : Source) : Prop where
  failureCount : source.failureCount = failures
  opened : source.circuitState = .opened ↔ 3 ≤ failures
  closed : failures = 0 → source.circuitState = .closed
  inactive : disableAfterFailures ≤ failures → source.active = false

/-- The columns of every source agree with the history. -/
def FetchHistory.Recorded (p : Platform) (history : FetchHistory) : Prop :=
  ∀ id source, history.db.sources.find id = some source →
    source.Recorded p.disableAfterFailures (history.failures id)

variable {p : Platform} {call : IngestionCall} {db : Database} {source : Source} {failures : ℕ}
  {history : FetchHistory}

/-- A new source has no failures. -/
theorem recorded_createdSource (h : 0 < disableAfterFailures)
    (tenantId name : String) : ({ tenantId, name } : Source).Recorded disableAfterFailures 0 where
  failureCount := rfl
  opened := iff_of_false nofun (by omega)
  closed _ := rfl
  inactive hle := by omega

theorem fetches_of_claims (h : Claims call db source) : fetches p call db = true := by
  unfold fetches
  rw [prepareIngestion_of_claims h]

theorem fetches_of_not_claims (h : ∀ source, ¬ Claims call db source) : fetches p call db = false := by
  obtain ⟨result, hprepare, hresult⟩ := prepareIngestion_of_not_claims (p := p) h
  unfold fetches
  rw [hprepare]
  cases result with
  | error exc => rfl
  | ok prepared =>
    cases prepared with
    | inl prepared => exact absurd rfl (hresult prepared)
    | inr response => rfl

/-! ### One source -/

/-- The failure of a fetch. -/
theorem Source.Recorded.recordFailure
    (h : source.Recorded disableAfterFailures failures) (now : Time) (errorMessage : String) :
    (source.recordFailure disableAfterFailures now errorMessage).Recorded disableAfterFailures (failures + 1) := by
  have hcount := h.failureCount
  refine ⟨congrArg (· + 1) hcount, ?_, fun hzero ↦ absurd hzero (Nat.succ_ne_zero failures), fun hdisable ↦ ?_⟩
  · unfold Source.recordFailure
    rw [hcount]
    dsimp only
    split_ifs with hthree
    · exact iff_of_true rfl hthree
    · exact iff_of_false nofun hthree
  · unfold Source.recordFailure
    rw [hcount]
    exact if_pos hdisable

/-- The columns that a poll sets have no part in it. -/
theorem Source.Recorded.recordPoll
    (h : source.Recorded disableAfterFailures failures) (polledAt : Time) :
    (source.recordPoll polledAt).Recorded disableAfterFailures failures :=
  ⟨h.failureCount, h.opened, h.closed, h.inactive⟩

/-- A live success begins a new count; a source that has been disabled stays so. -/
theorem Source.Recorded.recordSuccess
    (h : source.Recorded disableAfterFailures failures) (now : Time) :
    (source.recordSuccess now).Recorded disableAfterFailures 0 where
  failureCount := rfl
  opened := iff_of_false nofun (by omega)
  closed _ := rfl
  inactive hdisable := h.inactive (Int.le_trans hdisable (Int.ofNat_le.mpr (Nat.zero_le failures)))

/-- The second transaction records the fetch. -/
theorem Source.Recorded.fetched (h : source.Recorded p.disableAfterFailures failures) (polledAt : Time) :
    (source.fetched p call polledAt).Recorded p.disableAfterFailures (call.count failures) := by
  unfold Source.fetched IngestionCall.count
  cases call.fetch with
  | ok fetched => exact (h.recordPoll polledAt).recordSuccess call.finishedAt
  | error error => exact (h.recordFailure call.persistedAt _).recordPoll polledAt

/-! ### Runs of calls -/

/-- One call whose second transaction is committed. -/
theorem FetchHistory.Recorded.apply (h : history.Recorded p)
    (hcommits : ∀ source, Claims call history.db source → Commits p call history.db source) :
    (history.apply p call).Recorded p := by
  by_cases hclaims : ∃ source, Claims call history.db source
  · obtain ⟨source, hclaims⟩ := hclaims
    have hstored := persistFetch_of_commits hclaims (hcommits source hclaims)
    rw [← run_of_claims hclaims] at hstored
    obtain ⟨polledAt, hsources⟩ := hstored.sources
    intro id row hrow
    change ((runIngestionWorkflow p call).final history.db).sources.find id = some row at hrow
    rw [hsources, sources_claimed, KeyedTable.find_modify] at hrow
    unfold FetchHistory.apply
    rw [if_pos (fetches_of_claims hclaims)]
    by_cases hid : id = call.sourceId
    · subst hid
      rw [if_pos rfl] at hrow
      obtain ⟨old, hold, rfl⟩ := Option.map_eq_some_iff.mp hrow
      dsimp only
      rw [update_self]
      exact (h _ old hold).fetched polledAt
    · rw [if_neg hid] at hrow
      dsimp only
      rw [update_of_ne hid]
      exact h id row hrow
  · replace hclaims := not_exists.mp hclaims
    intro id row hrow
    change ((runIngestionWorkflow p call).final history.db).sources.find id = some row at hrow
    rw [run_of_not_claims hclaims] at hrow
    unfold FetchHistory.apply
    rw [if_neg (by rw [fetches_of_not_claims hclaims]; exact Bool.false_ne_true)]
    exact h id row hrow

/-- The columns of every source agree with its history along every run of calls whose second transactions are
committed. -/
theorem failures_recorded (p : Platform) (history : FetchHistory) (calls : List IngestionCall)
    (hstart : history.Recorded p)
    (hcalls : Along (FetchHistory.apply p)
      (fun history call ↦ ∀ source, Claims call history.db source → Commits p call history.db source)
      calls history) :
    Along (FetchHistory.apply p) (fun history call ↦ (history.apply p call).Recorded p) calls history :=
  hcalls.mono_invariant (fun _ _ h hcommits ↦ h.apply hcommits) (fun _ _ h hcommits ↦ h.apply hcommits) hstart

/-! ### A failure with and without a cache -/

def newHistory : FetchHistory := { db := queuedDatabase, failures := fun _ ↦ 0 }

theorem recorded_newHistory : newHistory.Recorded plainPlatform := by
  intro id source hsource
  obtain rfl : source = { tenantId := "t1", name := "Feed" } :=
    (Prod.mk.inj (List.mem_singleton.mp ((KeyedTable.find_eq_some_iff _ _ _).mp hsource))).2
  exact recorded_createdSource (by decide) "t1" "Feed"

def failedFetchWithCache : IngestionCall :=
  { failedFetch none with
    staleCache := .ok [{ url := "https://feed/1", canonicalUrl := "https://feed/1", title := "First" }] }

/-- The cache keeps the failure: it is counted. -/
theorem failures_recorded_with_cache :
    (newHistory.apply plainPlatform failedFetchWithCache).Recorded plainPlatform ∧
      (newHistory.apply plainPlatform failedFetchWithCache).failures 1 = 1 := by
  refine ⟨(failures_recorded plainPlatform newHistory [failedFetchWithCache] recorded_newHistory
    ⟨fun source _ ↦ ⟨_, rfl, List.cons_ne_nil _ _, List.all_eq_true.mpr fun _ _ ↦ rfl⟩, trivial⟩).1, ?_⟩
  decide +kernel

/-- Without an article in the cache the failure is not counted. -/
theorem failed_fetch_not_counted :
    ¬ ∀ (p : Platform) (history : FetchHistory) (calls : List IngestionCall), history.Recorded p →
      Along (FetchHistory.apply p) (fun history call ↦ (history.apply p call).Recorded p) calls history := by
  intro h
  have hrecorded := (h plainPlatform newHistory [failedFetch none] recorded_newHistory).1
  have hsource : ((newHistory.apply plainPlatform (failedFetch none)).db.sources.find 1).map
      Source.failureCount = some 0 := by decide +kernel
  have hfailures : (newHistory.apply plainPlatform (failedFetch none)).failures 1 = 1 := by decide +kernel
  obtain ⟨source, hfind, hcount⟩ := Option.map_eq_some_iff.mp hsource
  have hsame := (hrecorded 1 source hfind).failureCount
  rw [hcount, hfailures] at hsame
  exact Nat.zero_ne_one hsame

end ContentGenerator.SourceIngestion

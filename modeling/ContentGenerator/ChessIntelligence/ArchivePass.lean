import ContentGenerator.ChessIntelligence.PgnArchive
import ContentGenerator.Lib.FirstOf

/-!
# A pass over the games of an archive

What a call leaves in the catalog (`Catalog.Upserted`), and from it what one game and then all games of a run add
to the counters and to the catalog: `DryAfter` for a dry run, `RealAfter` for a run that stores
(`runImport_dry`, `runImport_real`). `examineGame` does not ask the catalog, so that both count the same errors
and the same games left out (`Tallied`).
-/

namespace ContentGenerator.ChessIntelligence

open Lib List ImportProgress Prod
open CatalogDb (gameIndex sameSighting)
open Option (isSome_map map_none map_some some_ne_none some_or)

variable {outcome : PersistOutcome}

/-! ### What a call leaves in the catalog -/

namespace Catalog

variable {catalog catalog' : Catalog} {call call' : UpsertCall} {tenantId fingerprint : String} {gameId : ℕ}

def idOf (catalog : Catalog) (tenantId fingerprint : String) : Option ℕ :=
  (catalog.getByFingerprint tenantId fingerprint).map fst

def Recorded (catalog : Catalog) (call : UpsertCall) : Prop :=
  ∃ gameId, catalog.idOf call.game.tenantId call.game.gameFingerprint = some gameId ∧
    ∃ source ∈ catalog.sources, sameSighting call gameId source = true

def liveFingerprints (catalog : Catalog) (tenantId : String) : List String :=
  ((catalog.games.entries.map snd).filter fun row ↦ !row.deleted && row.game.tenantId = tenantId).map
    (·.game.gameFingerprint)

theorem idOf_eq (catalog : Catalog) (tenantId fingerprint : String) :
    catalog.idOf tenantId fingerprint =
      (catalog.games.entries.find? fun entry ↦ hasFingerprint tenantId fingerprint entry.2).map fst := by
  rw [idOf, getByFingerprint, Option.map_map]
  rfl

theorem mem_liveFingerprints_iff :
    fingerprint ∈ catalog.liveFingerprints tenantId ↔ (catalog.idOf tenantId fingerprint).isSome := by
  rw [idOf_eq, isSome_map, find?_isSome]
  simp only [liveFingerprints, mem_map, mem_filter, hasFingerprint, Bool.and_eq_true, Bool.not_eq_true',
    decide_eq_true_eq]
  constructor
  · rintro ⟨_, ⟨⟨entry, hentry, rfl⟩, hlive⟩, hsame⟩
    exact ⟨entry, hentry, hlive, hsame⟩
  · rintro ⟨entry, hentry, hlive, hsame⟩
    exact ⟨entry.2, ⟨⟨entry, hentry, rfl⟩, hlive⟩, hsame⟩

theorem getByFingerprint_isSome_iff :
    (catalog.getByFingerprint tenantId fingerprint).isSome ↔ fingerprint ∈ catalog.liveFingerprints tenantId := by
  rw [mem_liveFingerprints_iff, idOf, isSome_map]

theorem idOf_attachSource (call : UpsertCall) (gameId : ℕ) (isPrimary : Bool) :
    (catalog.attachSource call gameId isPrimary).1.idOf = catalog.idOf := by
  unfold attachSource
  dsimp only
  split_ifs <;> rfl

/-- Blank columns are no part of what a game is found by. -/
theorem idOf_enrich (gameId : ℕ) (target incoming : ChessGame) :
    (catalog.enrich gameId target incoming).idOf = catalog.idOf := by
  funext tenantId fingerprint
  rw [idOf_eq, idOf_eq, enrich, KeyedTable.modify, KeyedTable.mapValues]
  dsimp only
  rw [find?_map, Option.map_map]
  refine congrArg₂ (fun test entries ↦ Option.map fst (find? test entries)) (funext fun entry ↦ ?_) rfl
  by_cases hid : entry.1 = gameId
  · simp only [Function.comp_apply, if_pos hid]
    rfl
  · simp only [Function.comp_apply, if_neg hid]

theorem idOf_addGame (game : ChessGame) :
    (catalog.addGame game).idOf tenantId fingerprint = (catalog.idOf tenantId fingerprint).or
      (if game.tenantId = tenantId ∧ game.gameFingerprint = fingerprint then some catalog.games.nextKey else none) := by
  rw [idOf_eq, idOf_eq, addGame, KeyedTable.entries_insertNew _ _ catalog.games.find_nextKey, find?_append,
    Option.map_or, find?_singleton]
  refine congrArg _ ?_
  by_cases hsame : game.tenantId = tenantId ∧ game.gameFingerprint = fingerprint
  · rw [if_pos hsame, if_pos (by simp [hasFingerprint, hsame]), map_some]
  · rw [if_neg hsame, if_neg (by simpa [hasFingerprint] using hsame), map_none]

theorem sameSighting_sourceRow (hexternal : call.source.externalId = none) (isPrimary : Bool) :
    sameSighting call gameId (call.sourceRow gameId isPrimary) = true := by
  unfold sameSighting UpsertCall.sourceRow
  simp only [hexternal, true_and, decide_eq_true_eq, Option.all_eq_true]
  exact ⟨fun name hname ↦ by simpa using hname, fun index hindex ↦ by simpa using hindex⟩

/-- Attaching the source of a sighting: the sources before stay, one of the sighting is there, and one is added
when there was none. -/
theorem attachSource_spec (catalog : Catalog) (gameId : ℕ) (hexternal : call.source.externalId = none)
    (isPrimary : Bool) :
    (∀ source ∈ catalog.sources, source ∈ (catalog.attachSource call gameId isPrimary).1.sources) ∧
      (∃ source ∈ (catalog.attachSource call gameId isPrimary).1.sources,
        sameSighting call gameId source = true) ∧
      ((∃ source ∈ catalog.sources, sameSighting call gameId source = true) →
        (catalog.attachSource call gameId isPrimary).2 = false) := by
  have hexists : catalog.sourceExists gameId call = catalog.sources.any (sameSighting call gameId) := by
    rw [sourceExists, hexternal, Option.filter_none]
  have hother : catalog.sources.any (sameExternalSource (call.sourceRow gameId isPrimary)) = false := by
    refine any_eq_false.mpr fun source _ ↦ ?_
    simp [sameExternalSource, UpsertCall.sourceRow, hexternal]
  unfold attachSource
  rw [hexists]
  by_cases hany : catalog.sources.any (sameSighting call gameId) = true
  · rw [if_pos hany]
    exact ⟨fun source hsource ↦ hsource, any_eq_true.mp hany, fun _ ↦ rfl⟩
  · rw [if_neg hany, if_neg (by rw [hother]; exact Bool.false_ne_true)]
    refine ⟨fun source hsource ↦ mem_append_left _ hsource, ⟨_, ?_, sameSighting_sourceRow hexternal isPrimary⟩,
      fun hsome ↦ absurd (any_eq_true.mpr hsome) hany⟩
    exact mem_append_right _ (mem_singleton_self _)

theorem refuses_eq_false (hexternal : call.source.externalId = none)
    (hnone : catalog.getByFingerprint call.game.tenantId call.game.gameFingerprint = none) :
    catalog.refuses call.sourcedGame = false := by
  refine any_eq_false.mpr fun entry hentry ↦ ?_
  rw [getByFingerprint, Option.map_eq_none_iff, find?_eq_none] at hnone
  have hfingerprint := hnone entry hentry
  simp only [hasFingerprint, Bool.and_eq_true, Bool.not_eq_true', decide_eq_true_eq, not_and] at hfingerprint
  simp only [UpsertCall.sourcedGame, sameFingerprint, sameExternalGame, hexternal, Option.isSome_none,
    Bool.false_and, Bool.or_false, Bool.and_eq_true, Bool.not_eq_true', decide_eq_true_eq, not_and]
  exact fun hlive htenant ↦ hfingerprint ⟨hlive, htenant⟩

/-- What `upsert_game` does with a sighting that has no external id. -/
structure Upserted (catalog : Catalog) (call : UpsertCall) (catalog' : Catalog) (outcome : PersistOutcome) : Prop where
  createdGame : outcome.createdGame = true ↔ catalog.idOf call.game.tenantId call.game.gameFingerprint = none
  createdSource : catalog.Recorded call → outcome.createdSource = false
  idOf : ∀ tenantId fingerprint, catalog'.idOf tenantId fingerprint = (catalog.idOf tenantId fingerprint).or
    (if call.game.tenantId = tenantId ∧ call.game.gameFingerprint = fingerprint then some catalog.games.nextKey
      else none)
  sources : ∀ source ∈ catalog.sources, source ∈ catalog'.sources
  recorded : catalog'.Recorded call

theorem upsertGame_of_externalId_none (hexternal : call.source.externalId = none) :
    ∃ catalog' outcome, catalog.upsertGame call = .ok (catalog', outcome) ∧ Upserted catalog call catalog' outcome := by
  unfold upsertGame
  cases hfound : catalog.getByFingerprint call.game.tenantId call.game.gameFingerprint with
  | some entry =>
    obtain ⟨gameId, target⟩ := entry
    have hid : catalog.idOf call.game.tenantId call.game.gameFingerprint = some gameId := by
      rw [idOf, hfound, map_some]
    obtain ⟨hsources, hsighting, hold⟩ :=
      attachSource_spec (catalog.enrich gameId target call.game) gameId hexternal false
    refine ⟨_, _, rfl, ?_, ?_, ?_, hsources, gameId, ?_, hsighting⟩
    · rw [hid]
      exact iff_of_false Bool.false_ne_true (some_ne_none gameId)
    · rintro ⟨gameId', hid', hsource⟩
      obtain rfl := Option.mem_unique hid hid'
      exact hold hsource
    · intro tenantId fingerprint
      rw [idOf_attachSource, idOf_enrich]
      by_cases hsame : call.game.tenantId = tenantId ∧ call.game.gameFingerprint = fingerprint
      · rw [← hsame.1, ← hsame.2, hid, some_or]
      · rw [if_neg hsame, Option.or_none]
    · rw [idOf_attachSource, idOf_enrich, hid]
  | none =>
    have hid : catalog.idOf call.game.tenantId call.game.gameFingerprint = none := by
      rw [idOf, hfound, map_none]
    obtain ⟨hsources, hsighting, -⟩ := 
      attachSource_spec (catalog.addGame call.sourcedGame) catalog.games.nextKey hexternal true
    dsimp only
    rw [if_neg (by rw [refuses_eq_false hexternal hfound]; exact Bool.false_ne_true)]
    refine ⟨_, _, rfl, iff_of_true rfl hid, ?_, ?_, hsources, catalog.games.nextKey, ?_, hsighting⟩
    · rintro ⟨gameId, hid', -⟩
      exact absurd (hid.symm.trans hid') nofun
    · intro tenantId fingerprint
      rw [idOf_attachSource, idOf_addGame]
      rfl
    · rw [idOf_attachSource, idOf_addGame, hid, Option.none_or, if_pos ⟨rfl, rfl⟩]

/-- What is recorded stays recorded. -/
theorem Upserted.mono (h : Upserted catalog call catalog' outcome)
    (hrecorded : catalog.Recorded call') : catalog'.Recorded call' := by
  obtain ⟨gameId, hid, source, hsource, hsame⟩ := hrecorded
  exact ⟨gameId, by rw [h.idOf, hid, some_or], source, h.sources source hsource, hsame⟩

theorem Upserted.mem_liveFingerprints (h : Upserted catalog call catalog' outcome)
    (hcall : call.game.tenantId = tenantId) :
    fingerprint ∈ catalog'.liveFingerprints tenantId ↔
      fingerprint ∈ call.game.gameFingerprint :: catalog.liveFingerprints tenantId := by
  rw [mem_cons, mem_liveFingerprints_iff, mem_liveFingerprints_iff, h.idOf, Option.isSome_or, Bool.or_eq_true,
    or_comm, hcall]
  refine or_congr_left ?_
  by_cases hsame : call.game.gameFingerprint = fingerprint
  · rw [if_pos ⟨rfl, hsame⟩]
    exact iff_of_true rfl hsame.symm
  · rw [if_neg fun hboth ↦ hsame hboth.2]
    exact iff_of_false Bool.false_ne_true (Ne.symm hsame)

def SameSighting (call call' : UpsertCall) : Prop :=
  call'.game.tenantId = call.game.tenantId ∧ call'.game.gameFingerprint = call.game.gameFingerprint ∧
    call'.source.provider = call.source.provider ∧ call'.source.sourceName = call.source.sourceName ∧
    gameIndex call'.source.sourceMetadata = gameIndex call.source.sourceMetadata

theorem Recorded.of_sameSighting (h : catalog.Recorded call) (hsame : SameSighting call call') :
    catalog.Recorded call' := by
  obtain ⟨htenant, hfingerprint, hprovider, hname, hindex⟩ := hsame
  unfold Recorded sameSighting at h ⊢
  rw [htenant, hfingerprint, hprovider, hname, hindex]
  exact h

end Catalog

/-! ### The games that a run comes to -/

/-- The games after the skipped ones, up to the maximum. -/
def scannedGames (config : PgnArchiveImportConfig) (maxGames : Option ℤ) (scanned : ℕ)
    (games : List (ℕ × String)) : List (ℕ × String) :=
  let rest := games.filter fun game ↦ config.skipGames < (game.1 : ℤ)
  match maxGames with
  | none => rest
  | some maxGames => rest.take (maxGames - scanned).toNat

def ExaminedGame.isError : ExaminedGame → Bool
  | .error _ => true
  | _ => false

def ExaminedGame.isFiltered : ExaminedGame → Bool
  | .filtered => true
  | _ => false

def ExaminedGame.call : ExaminedGame → Option UpsertCall
  | .candidate call => some call
  | _ => none

/-- The calls that some games come to. -/
def candidateCalls (env : ImportEnv) (config : PgnArchiveImportConfig) (provider : String)
    (games : List (ℕ × String)) : List UpsertCall :=
  games.filterMap fun game ↦ (examineGame env config provider game).call

def UpsertCall.fingerprint (call : UpsertCall) : String := call.game.gameFingerprint

variable {env : ImportEnv} {config : PgnArchiveImportConfig} {provider : String} {st st' st'' : ImportState}
  {game : ℕ × String} {games games' : List (ℕ × String)} {call : UpsertCall}

theorem candidateCalls_append :
    candidateCalls env config provider (games ++ games') =
      candidateCalls env config provider games ++ candidateCalls env config provider games' :=
  filterMap_append

/-- A candidate is a game of the tenant, sighted without an external id. -/
theorem candidate_spec (h : examineGame env config provider game = .candidate call) :
    call.game.tenantId = config.tenantId ∧ call.source.externalId = none := by
  unfold examineGame at h
  cases hparse : env.parseChessInput game.2 with
  | error message =>
    rw [hparse] at h
    exact absurd h nofun
  | ok parsed =>
    rw [hparse] at h
    dsimp only at h
    split_ifs at h
    obtain rfl := ExaminedGame.candidate.inj h
    exact ⟨rfl, rfl⟩

/-- What both kinds of runs count. -/
structure Tallied (env : ImportEnv) (config : PgnArchiveImportConfig) (provider : String)
    (games : List (ℕ × String)) (before after : ImportProgress) : Prop where
  scanned : after.scanned = before.scanned + games.length
  skippedError : after.skippedError =
    before.skippedError + games.countP fun game ↦ (examineGame env config provider game).isError
  skippedFiltered : after.skippedFiltered =
    before.skippedFiltered + games.countP fun game ↦ (examineGame env config provider game).isFiltered
  stored : after.inserted + after.linkedSource + after.skippedDuplicate =
    before.inserted + before.linkedSource + before.skippedDuplicate +
      (candidateCalls env config provider games).length

/-- What a dry run does with some games. -/
structure DryAfter (env : ImportEnv) (config : PgnArchiveImportConfig) (provider : String)
    (games : List (ℕ × String)) (st st' : ImportState) : Prop
    extends Tallied env config provider games st.progress st'.progress where
  inserted : st'.progress.inserted = st.progress.inserted +
    ((candidateCalls env config provider games).filter fun call ↦
      call.fingerprint ∉ st.catalog.liveFingerprints config.tenantId).length
  catalog : st'.catalog = st.catalog

/-- What a real run does with some games. -/
structure RealAfter (env : ImportEnv) (config : PgnArchiveImportConfig) (provider : String)
    (games : List (ℕ × String)) (st st' : ImportState) : Prop
    extends Tallied env config provider games st.progress st'.progress where
  inserted : st'.progress.inserted = st.progress.inserted +
    (firstOf UpsertCall.fingerprint (st.catalog.liveFingerprints config.tenantId)
      (candidateCalls env config provider games)).length
  live : ∀ fingerprint, fingerprint ∈ st'.catalog.liveFingerprints config.tenantId ↔
    fingerprint ∈ st.catalog.liveFingerprints config.tenantId ++
      (candidateCalls env config provider games).map UpsertCall.fingerprint
  recorded : ∀ call ∈ candidateCalls env config provider games, st'.catalog.Recorded call
  kept : ∀ call, st.catalog.Recorded call → st'.catalog.Recorded call
  again : (∀ call ∈ candidateCalls env config provider games, st.catalog.Recorded call) →
    st'.progress.inserted = st.progress.inserted ∧ st'.progress.linkedSource = st.progress.linkedSource

theorem Tallied.trans {before middle after : ImportProgress}
    (h : Tallied env config provider games before middle) (h' : Tallied env config provider games' middle after) :
    Tallied env config provider (games ++ games') before after where
  scanned := by rw [h'.scanned, h.scanned, length_append, Nat.add_assoc]
  skippedError := by rw [h'.skippedError, h.skippedError, countP_append, Nat.add_assoc]
  skippedFiltered := by rw [h'.skippedFiltered, h.skippedFiltered, countP_append, Nat.add_assoc]
  stored := by rw [h'.stored, h.stored, candidateCalls_append, length_append, Nat.add_assoc]

theorem DryAfter.trans (h : DryAfter env config provider games st st')
    (h' : DryAfter env config provider games' st' st'') :
    DryAfter env config provider (games ++ games') st st'' where
  toTallied := h.toTallied.trans h'.toTallied
  inserted := by
    rw [h'.inserted, h.inserted, h.catalog, candidateCalls_append, filter_append, length_append,
      Nat.add_assoc]
  catalog := h'.catalog.trans h.catalog

theorem RealAfter.trans (h : RealAfter env config provider games st st')
    (h' : RealAfter env config provider games' st' st'') :
    RealAfter env config provider (games ++ games') st st'' where
  toTallied := h.toTallied.trans h'.toTallied
  inserted := by
    -- the second part finds the fingerprints of the first, kept or not
    have htaken : ∀ fingerprint, fingerprint ∈ st'.catalog.liveFingerprints config.tenantId ↔
        fingerprint ∈ st.catalog.liveFingerprints config.tenantId ++
          (firstOf UpsertCall.fingerprint (st.catalog.liveFingerprints config.tenantId)
            (candidateCalls env config provider games)).map UpsertCall.fingerprint := by
      intro fingerprint
      rw [h.live, mem_append, mem_append]
      constructor
      · rintro (hold | hnew)
        · exact .inl hold
        · obtain ⟨call, hcall, rfl⟩ := mem_map.mp hnew
          refine (mem_taken_or_kept hcall).imp id ?_
          rintro ⟨other, hother, hsame⟩
          exact mem_map.mpr ⟨other, hother, hsame⟩
      · refine Or.imp id fun hkept ↦ ?_
        obtain ⟨call, hcall, rfl⟩ := mem_map.mp hkept
        exact mem_map_of_mem (mem_of_mem_firstOf hcall)
    rw [h'.inserted, h.inserted, firstOf_congr htaken, candidateCalls_append, firstOf_append, length_append,
      Nat.add_assoc]
  live := by
    intro fingerprint
    rw [h'.live, mem_append, h.live, candidateCalls_append, map_append, mem_append, mem_append,
      mem_append, or_assoc]
  recorded := by
    intro call hcall
    rw [candidateCalls_append, mem_append] at hcall
    exact hcall.elim (fun hcall ↦ h'.kept call (h.recorded call hcall)) (h'.recorded call)
  kept := fun call hcall ↦ h'.kept call (h.kept call hcall)
  again := by
    intro hall
    rw [candidateCalls_append] at hall
    have hfirst := h.again fun call hcall ↦ hall call (mem_append_left _ hcall)
    have hsecond := h'.again fun call hcall ↦ h.kept call (hall call (mem_append_right _ hcall))
    exact ⟨hsecond.1.trans hfirst.1, hsecond.2.trans hfirst.2⟩

/-! ### One game -/

/-- What an outcome adds to the counters. -/
theorem recordOutcome_counts (progress : ImportProgress) (outcome : PersistOutcome) :
    ∃ inserted linkedSource skippedDuplicate, progress.recordOutcome outcome =
        { progress with
          inserted := progress.inserted + inserted
          linkedSource := progress.linkedSource + linkedSource
          skippedDuplicate := progress.skippedDuplicate + skippedDuplicate } ∧
      inserted + linkedSource + skippedDuplicate = 1 ∧ inserted = (if outcome.createdGame then 1 else 0) ∧
      (outcome.createdGame = false → outcome.createdSource = false → linkedSource = 0) := by
  unfold recordOutcome
  cases hgame : outcome.createdGame with
  | true => exact ⟨1, 0, 0, rfl, rfl, rfl, fun h ↦ absurd h nofun⟩
  | false =>
    cases hsource : outcome.createdSource with
    | true => exact ⟨0, 1, 0, rfl, rfl, rfl, fun _ h ↦ absurd h nofun⟩
    | false => exact ⟨0, 0, 1, rfl, rfl, rfl, fun _ _ ↦ rfl⟩

theorem countPending_counts (st : ImportState) (batchSize : ℤ) :
    (st.countPending batchSize).catalog = st.catalog ∧
      ∃ committed, (st.countPending batchSize).progress = { st.progress with batchesCommitted := committed } := by
  unfold ImportState.countPending
  split_ifs
  · exact ⟨rfl, _, rfl⟩
  · exact ⟨rfl, st.progress.batchesCommitted, rfl⟩

theorem importGame_dry (env : ImportEnv) (provider : String) (hdry : config.dryRun = true) (st : ImportState) (game : ℕ × String) :
    ∃ st', importGame env config provider st game = .ok st' ∧ DryAfter env config provider [game] st st' := by
  unfold importGame
  cases hgame : examineGame env config provider game with
  | error message =>
    refine ⟨_, rfl, ⟨rfl, ?_, ?_, ?_⟩, ?_, rfl⟩ <;>
      simp [candidateCalls, hgame, ExaminedGame.isError, ExaminedGame.isFiltered, ExaminedGame.call,
        recordError]
  | filtered =>
    refine ⟨_, rfl, ⟨rfl, ?_, ?_, ?_⟩, ?_, rfl⟩ <;>
      simp [candidateCalls, hgame, ExaminedGame.isError, ExaminedGame.isFiltered, ExaminedGame.call]
  | candidate call =>
    have hcalls : candidateCalls env config provider [game] = [call] := by
      simp [candidateCalls, hgame, ExaminedGame.call]
    dsimp only
    rw [if_pos hdry]
    cases hfound : st.catalog.getByFingerprint config.tenantId call.game.gameFingerprint with
    | none =>
      have hnew : call.fingerprint ∉ st.catalog.liveFingerprints config.tenantId := by
        rw [UpsertCall.fingerprint, ← Catalog.getByFingerprint_isSome_iff, hfound]
        exact Bool.false_ne_true
      refine ⟨_, rfl, ⟨rfl, ?_, ?_, ?_⟩, ?_, rfl⟩
      · simp [hgame, ExaminedGame.isError]
      · simp [hgame, ExaminedGame.isFiltered]
      · rw [hcalls, length_singleton]
        dsimp only
        omega
      · rw [hcalls, filter_cons_of_pos (by simpa using hnew)]
        rfl
    | some entry =>
      have hold : call.fingerprint ∈ st.catalog.liveFingerprints config.tenantId := by
        rw [UpsertCall.fingerprint, ← Catalog.getByFingerprint_isSome_iff, hfound]
        rfl
      refine ⟨_, rfl, ⟨rfl, ?_, ?_, ?_⟩, ?_, rfl⟩
      · simp [hgame, ExaminedGame.isError]
      · simp [hgame, ExaminedGame.isFiltered]
      · rw [hcalls, length_singleton]
        dsimp only
        omega
      · rw [hcalls, filter_cons_of_neg (by simpa using hold)]
        rfl

theorem importGame_real (env : ImportEnv) (provider : String) (hreal : config.dryRun = false) (st : ImportState) (game : ℕ × String) :
    ∃ st', importGame env config provider st game = .ok st' ∧ RealAfter env config provider [game] st st' := by
  unfold importGame
  cases hgame : examineGame env config provider game with
  | error message =>
    refine ⟨_, rfl, ⟨rfl, ?_, ?_, ?_⟩, ?_, ?_, ?_, fun call hcall ↦ hcall, fun _ ↦ ⟨rfl, rfl⟩⟩ <;>
      simp [candidateCalls, hgame, ExaminedGame.isError, ExaminedGame.isFiltered, ExaminedGame.call,
        recordError, firstOf]
  | filtered =>
    refine ⟨_, rfl, ⟨rfl, ?_, ?_, ?_⟩, ?_, ?_, ?_, fun call hcall ↦ hcall, fun _ ↦ ⟨rfl, rfl⟩⟩ <;>
      simp [candidateCalls, hgame, ExaminedGame.isError, ExaminedGame.isFiltered, ExaminedGame.call, firstOf]
  | candidate call =>
    have hcalls : candidateCalls env config provider [game] = [call] := by
      simp [candidateCalls, hgame, ExaminedGame.call]
    obtain ⟨htenant, hexternal⟩ := candidate_spec hgame
    obtain ⟨catalog, outcome, hupsert, hspec⟩ := st.catalog.upsertGame_of_externalId_none hexternal
    have hcreated : outcome.createdGame = true ↔
        call.fingerprint ∉ st.catalog.liveFingerprints config.tenantId := by
      rw [hspec.createdGame, UpsertCall.fingerprint, Catalog.mem_liveFingerprints_iff, htenant,
        Bool.not_eq_true, Option.isSome_eq_false_iff, Option.isNone_iff_eq_none]
    dsimp only
    rw [if_neg (by rw [hreal]; exact Bool.false_ne_true), hupsert]
    let progress := { st.progress with scanned := st.progress.scanned + 1 }
    let stored : ImportState := { st with catalog, progress := progress.recordOutcome outcome }
    obtain ⟨hcatalog, committed, hprogress⟩ := countPending_counts stored config.batchSize
    obtain ⟨inserted, linkedSource, skippedDuplicate, houtcome, hone, hinserted, hlinked⟩ :=
      recordOutcome_counts progress outcome
    have hcounts : (stored.countPending config.batchSize).progress =
        { progress with
          inserted := progress.inserted + inserted
          linkedSource := progress.linkedSource + linkedSource
          skippedDuplicate := progress.skippedDuplicate + skippedDuplicate
          batchesCommitted := committed } := by
      rw [hprogress, show stored.progress = progress.recordOutcome outcome from rfl, houtcome]
    refine ⟨stored.countPending config.batchSize, rfl, ⟨?_, ?_, ?_, ?_⟩, ?_, ?_, ?_, ?_, ?_⟩
    · rw [hcounts]
      rfl
    · rw [hcounts, countP_singleton, hgame]
      rfl
    · rw [hcounts, countP_singleton, hgame]
      rfl
    · rw [hcounts, hcalls, length_singleton]
      change st.progress.inserted + inserted + (st.progress.linkedSource + linkedSource) +
        (st.progress.skippedDuplicate + skippedDuplicate) = _
      omega
    · rw [hcounts, hcalls]
      change st.progress.inserted + inserted = _
      rw [hinserted]
      by_cases hnew : call.fingerprint ∈ st.catalog.liveFingerprints config.tenantId
      · rw [if_neg fun h ↦ hcreated.mp h hnew, firstOf_cons_of_mem hnew]
        rfl
      · rw [if_pos (hcreated.mpr hnew), firstOf_cons_of_notMem hnew]
        rfl
    · intro fingerprint
      rw [hcatalog, hspec.mem_liveFingerprints htenant, hcalls, mem_append, map_singleton, mem_cons,
        mem_singleton, or_comm]
      rfl
    · intro other hother
      rw [hcalls, mem_singleton] at hother
      rw [hcatalog, hother]
      exact hspec.recorded
    · intro other hother
      rw [hcatalog]
      exact hspec.mono hother
    · intro hall
      have hrecorded := hall call (hcalls ▸ mem_singleton_self call)
      have hold : outcome.createdGame = false := by
        obtain ⟨gameId, hid, -⟩ := hrecorded
        rw [Bool.eq_false_iff, ne_eq, hspec.createdGame, hid]
        exact some_ne_none gameId
      rw [hcounts]
      refine ⟨?_, ?_⟩
      · change st.progress.inserted + inserted = _
        rw [hinserted, hold]
        rfl
      · change st.progress.linkedSource + linkedSource = _
        rw [hlinked hold (hspec.createdSource hrecorded)]
        rfl

/-! ### The games of a run -/

/-- The run goes on after its checks, with the provider under this name. -/
def Accepted (env : ImportEnv) (config : PgnArchiveImportConfig) (provider : String) : Prop :=
  ¬ config.batchSize < 1 ∧ assertBulkFileAllowed env config.provider = .ok provider

/-- The games of the file that a run comes to. -/
def archiveGames (env : ImportEnv) (config : PgnArchiveImportConfig) : List (ℕ × String) :=
  scannedGames config (clampPgnImportMaxGames env config.maxGames) 0 (iterPgnGames config.games)

theorem importGame_tallied (env : ImportEnv) (config : PgnArchiveImportConfig) (provider : String)
    (st : ImportState) (game : ℕ × String) :
    ∃ st', importGame env config provider st game = .ok st' ∧
      Tallied env config provider [game] st.progress st'.progress := by
  cases hdry : config.dryRun with
  | true =>
    obtain ⟨st', hgame, hafter⟩ := importGame_dry env provider hdry st game
    exact ⟨st', hgame, hafter.toTallied⟩
  | false =>
    obtain ⟨st', hgame, hafter⟩ := importGame_real env provider hdry st game
    exact ⟨st', hgame, hafter.toTallied⟩

section scannedGames

variable {maxGames : Option ℤ} {scanned : ℕ} {rest : List (ℕ × String)}

theorem scannedGames_nil : scannedGames config maxGames scanned [] = [] := by
  cases maxGames with
  | none => rfl
  | some maxGames => exact take_nil

theorem scannedGames_of_skipped (hskip : (game.1 : ℤ) ≤ config.skipGames) :
    scannedGames config maxGames scanned (game :: rest) = scannedGames config maxGames scanned rest := by
  unfold scannedGames
  rw [filter_cons_of_neg (by simpa using hskip)]

theorem scannedGames_of_full {games : List (ℕ × String)}
    (hmax : (maxGames.any fun maxGames ↦ maxGames ≤ (scanned : ℤ)) = true) :
    scannedGames config maxGames scanned games = [] := by
  cases maxGames with
  | none => exact absurd hmax Bool.false_ne_true
  | some maxGames =>
    have hfull : maxGames ≤ (scanned : ℤ) := by simpa using hmax
    unfold scannedGames
    dsimp only
    rw [Int.toNat_of_nonpos (by omega), take_zero]

theorem scannedGames_cons (hskip : ¬ (game.1 : ℤ) ≤ config.skipGames)
    (hmax : ¬ (maxGames.any fun maxGames ↦ maxGames ≤ (scanned : ℤ)) = true) :
    scannedGames config maxGames scanned (game :: rest) =
      game :: scannedGames config maxGames (scanned + 1) rest := by
  unfold scannedGames
  rw [filter_cons_of_pos (by simpa using hskip)]
  cases maxGames with
  | none => rfl
  | some maxGames =>
    have hroom : ¬ maxGames ≤ (scanned : ℤ) := by simpa using hmax
    have hleft : (maxGames - (scanned : ℤ)).toNat = (maxGames - ((scanned + 1 : ℕ) : ℤ)).toNat + 1 := by omega
    dsimp only
    rw [hleft, take_succ_cons]

end scannedGames

/-- The loop is a pass over the games that it comes to: the maximum is on the games scanned, and every game that
is not skipped counts as one. -/
theorem importGames_eq (maxGames : Option ℤ) (games : List (ℕ × String)) (st : ImportState) :
    importGames env config provider maxGames games st =
      (scannedGames config maxGames st.progress.scanned games).foldlM (importGame env config provider) st := by
  induction games generalizing st with
  | nil =>
    rw [scannedGames_nil]
    rfl
  | cons game rest ih =>
    rw [importGames]
    by_cases hskip : (game.1 : ℤ) ≤ config.skipGames
    · rw [if_pos hskip, ih, scannedGames_of_skipped hskip]
    · rw [if_neg hskip]
      by_cases hmax : (maxGames.any fun maxGames ↦ maxGames ≤ (st.progress.scanned : ℤ)) = true
      · rw [if_pos hmax, scannedGames_of_full hmax]
        rfl
      · obtain ⟨next, hgame, hafter⟩ := importGame_tallied env config provider st game
        have hscanned : next.progress.scanned = st.progress.scanned + 1 := hafter.scanned
        rw [if_neg hmax, scannedGames_cons hskip hmax, ← hscanned, foldlM_cons, hgame]
        exact ih next

/-- What holds of no games, of one game and of two parts together holds of all games. -/
theorem importGames_after {After : List (ℕ × String) → ImportState → ImportState → Prop}
    (refl : ∀ st, After [] st st)
    (step : ∀ st game, ∃ st', importGame env config provider st game = .ok st' ∧ After [game] st st')
    (trans : ∀ game rest st st' st'', After [game] st st' → After rest st' st'' → After ([game] ++ rest) st st'')
    (games : List (ℕ × String)) (st : ImportState) :
    ∃ st', games.foldlM (importGame env config provider) st = .ok st' ∧ After games st st' := by
  induction games generalizing st with
  | nil => exact ⟨st, rfl, refl st⟩
  | cons game rest ih =>
    obtain ⟨next, hgame, hone⟩ := step st game
    obtain ⟨st', hrest, hmany⟩ := ih next
    refine ⟨st', ?_, trans game rest st next st' hone hmany⟩
    rw [foldlM_cons, hgame]
    exact hrest

theorem dryAfter_nil (env : ImportEnv) (config : PgnArchiveImportConfig) (provider : String) (st : ImportState) :
    DryAfter env config provider [] st st :=
  ⟨⟨rfl, rfl, rfl, rfl⟩, rfl, rfl⟩

theorem realAfter_nil (env : ImportEnv) (config : PgnArchiveImportConfig) (provider : String) (st : ImportState) :
    RealAfter env config provider [] st st :=
  ⟨⟨rfl, rfl, rfl, rfl⟩, rfl, fun _ ↦ by rw [candidateCalls, filterMap_nil, map_nil, append_nil],
    fun _ h ↦ absurd h not_mem_nil, fun _ h ↦ h, fun _ ↦ ⟨rfl, rfl⟩⟩

theorem runImport_of_importGames {catalog : Catalog} (haccepted : Accepted env config provider)
    (hgames : (archiveGames env config).foldlM (importGame env config provider) { catalog } = .ok st) :
    ∃ committed, runImport env config catalog =
      .ok ({ st.progress with batchesCommitted := committed }, st.catalog) := by
  unfold runImport
  rw [if_neg haccepted.1, haccepted.2]
  have hloop : importGames env config provider (clampPgnImportMaxGames env config.maxGames)
      (iterPgnGames config.games) { catalog } = .ok st := by
    rw [importGames_eq]
    exact hgames
  by_cases hpending : (!config.dryRun) = true ∧ st.pendingSinceCommit ≠ 0
  · refine ⟨st.progress.batchesCommitted + 1, ?_⟩
    simp only [hloop, bind, Except.bind, if_pos hpending]
  · refine ⟨st.progress.batchesCommitted, ?_⟩
    simp only [hloop, bind, Except.bind, if_neg hpending]

theorem runImport_dry (haccepted : Accepted env config provider) (hdry : config.dryRun = true) (catalog : Catalog) :
    ∃ st, runImport env config catalog = .ok (st.progress, st.catalog) ∧
      DryAfter env config provider (archiveGames env config) { catalog } st := by
  obtain ⟨st, hgames, hafter⟩ := importGames_after (dryAfter_nil env config provider)
    (importGame_dry env provider hdry) (fun _ _ _ _ _ ↦ DryAfter.trans) (archiveGames env config) { catalog }
  obtain ⟨committed, hrun⟩ := runImport_of_importGames haccepted hgames
  refine ⟨{ st with progress := { st.progress with batchesCommitted := committed } }, hrun, ?_⟩
  exact ⟨⟨hafter.scanned, hafter.skippedError, hafter.skippedFiltered, hafter.stored⟩, hafter.inserted, hafter.catalog⟩

theorem runImport_real (haccepted : Accepted env config provider) (hreal : config.dryRun = false)
    (catalog : Catalog) :
    ∃ st, runImport env config catalog = .ok (st.progress, st.catalog) ∧
      RealAfter env config provider (archiveGames env config) { catalog } st := by
  obtain ⟨st, hgames, hafter⟩ := importGames_after (realAfter_nil env config provider)
    (importGame_real env provider hreal) (fun _ _ _ _ _ ↦ RealAfter.trans) (archiveGames env config) { catalog }
  obtain ⟨committed, hrun⟩ := runImport_of_importGames haccepted hgames
  refine ⟨{ st with progress := { st.progress with batchesCommitted := committed } }, hrun, ?_⟩
  exact ⟨⟨hafter.scanned, hafter.skippedError, hafter.skippedFiltered, hafter.stored⟩, hafter.inserted, hafter.live,
    hafter.recorded, hafter.kept, hafter.again⟩

end ContentGenerator.ChessIntelligence

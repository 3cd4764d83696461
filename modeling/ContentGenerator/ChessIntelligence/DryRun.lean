import ContentGenerator.ChessIntelligence.ArchivePass

/-!
# What a dry run says of the run

A dry run looks every game up in the catalog before the import, the run in the catalog with the games it has
stored: the dry run counts a game as inserted whenever its fingerprint is not there, the run the first of every
fingerprint only. The counts agree exactly when no new fingerprint comes up twice (`dry_run_iff`); that the
counters add up, and that a second run inserts and links nothing, holds always.
-/

namespace ContentGenerator.ChessIntelligence

open Lib List Option ExaminedGame
open JsonObject (get_set_of_ne)

variable {env : ImportEnv} {config : PgnArchiveImportConfig} {provider : String}

/-- The counters on which a dry run and the run are compared. -/
def reported (run : ImportProgress × Catalog) : ℕ × ℕ × ℕ × ℕ :=
  (run.1.scanned, run.1.inserted, run.1.skippedFiltered, run.1.skippedError)

/-- Every scanned game is in one counter. -/
def AddsUp (progress : ImportProgress) : Prop :=
  progress.scanned = progress.inserted + progress.linkedSource + progress.skippedDuplicate +
    progress.skippedFiltered + progress.skippedError

/-- The same archive once more, under the same names and with the same games asked for. -/
def PgnArchiveImportConfig.again (config other : PgnArchiveImportConfig) : PgnArchiveImportConfig :=
  { other with
    tenantId := config.tenantId
    games := config.games
    provider := config.provider
    sourceName := config.sourceName
    dryRun := false
    skipGames := config.skipGames
    maxGames := config.maxGames
    filters := config.filters }

/-- The games that a run asks the catalog for; none when it is refused. -/
def archiveCalls (env : ImportEnv) (config : PgnArchiveImportConfig) : List UpsertCall :=
  if config.batchSize < 1 then []
  else
    match assertBulkFileAllowed env config.provider with
    | .error _ => []
    | .ok provider => candidateCalls env config provider (archiveGames env config)

/-- No fingerprint that the catalog does not have comes up twice. -/
def NewGamesDistinct (env : ImportEnv) (config : PgnArchiveImportConfig) (catalog : Catalog) : Prop :=
  (((archiveCalls env config).filter fun call ↦
    call.fingerprint ∉ catalog.liveFingerprints config.tenantId).map UpsertCall.fingerprint).Nodup

theorem archiveCalls_of_accepted (haccepted : Accepted env config provider) :
    archiveCalls env config = candidateCalls env config provider (archiveGames env config) := by
  rw [archiveCalls, if_neg haccepted.1, haccepted.2]

/-- The run goes on after its checks. -/
def PgnArchiveImportConfig.Valid (config : PgnArchiveImportConfig) (env : ImportEnv) : Prop :=
  ∃ provider, Accepted env config provider

/-- A configuration is accepted, or refused whatever the catalog is, in a dry run too. -/
theorem accepted_or_refused (env : ImportEnv) (config : PgnArchiveImportConfig) :
    config.Valid env ∨
      archiveCalls env config = [] ∧
        ∃ error, ∀ dryRun catalog, runImport env { config with dryRun } catalog = .error error := by
  by_cases hbatch : config.batchSize < 1
  · refine .inr ⟨if_pos hbatch, .valueError "batch_size must be >= 1", fun dryRun catalog ↦ ?_⟩
    rw [runImport, if_pos hbatch]
  · cases hprovider : assertBulkFileAllowed env config.provider with
    | ok provider => exact .inl ⟨provider, hbatch, hprovider⟩
    | error message =>
      refine .inr ⟨?_, .valueError message, fun dryRun catalog ↦ ?_⟩
      · rw [archiveCalls, if_neg hbatch, hprovider]
      · rw [runImport, if_neg hbatch, hprovider]

/-! ### The counters add up -/

theorem length_eq_counts (env : ImportEnv) (config : PgnArchiveImportConfig) (provider : String)
    (games : List (ℕ × String)) :
    games.length = (games.countP fun game ↦ (examineGame env config provider game).isError) +
      (games.countP fun game ↦ (examineGame env config provider game).isFiltered) +
      (candidateCalls env config provider games).length := by
  induction games with
  | nil => rfl
  | cons game rest ih =>
    rw [length_cons, ih, countP_cons, countP_cons, candidateCalls, candidateCalls,
      filterMap_cons]
    cases examineGame env config provider game with
    | error message | filtered | candidate call => simp [isError, isFiltered, ExaminedGame.call]; omega

theorem Tallied.addsUp {games : List (ℕ × String)} {progress : ImportProgress}
    (h : Tallied env config provider games {} progress) : AddsUp progress := by
  have hscanned : progress.scanned = 0 + games.length := h.scanned
  have herror := h.skippedError
  have hfiltered := h.skippedFiltered
  have hstored := h.stored
  have hlength := length_eq_counts env config provider games
  unfold AddsUp
  dsimp only at herror hfiltered hstored
  omega

theorem runImport_addsUp (hvalid : config.Valid env) (catalog : Catalog) :
    ∃ progress catalog', runImport env config catalog = .ok (progress, catalog') ∧ AddsUp progress := by
  obtain ⟨provider, haccepted⟩ := hvalid
  cases hdry : config.dryRun with
  | true =>
    obtain ⟨st, hrun, hafter⟩ := runImport_dry haccepted hdry catalog
    exact ⟨_, _, hrun, hafter.addsUp⟩
  | false =>
    obtain ⟨st, hrun, hafter⟩ := runImport_real haccepted hdry catalog
    exact ⟨_, _, hrun, hafter.addsUp⟩

/-! ### The second run -/

theorem get_setNonEmpty {key name : String} (hkey : name ≠ key) (metadata : JsonObject) (text : Option String) :
    (setNonEmpty metadata key text).get name = metadata.get name := by
  unfold setNonEmpty
  cases nonEmpty text with
  | none => rfl
  | some text => exact get_set_of_ne metadata _ hkey

theorem gameIndex_sightingMetadata (config : PgnArchiveImportConfig) (index : ℕ) :
    CatalogDb.gameIndex (config.sightingMetadata index) = some (.int index) := by
  have hindex : (config.sightingMetadata index).get "game_index" = some (.int index) := by
    unfold PgnArchiveImportConfig.sightingMetadata
    dsimp only
    rw [get_setNonEmpty (by decide +kernel), get_setNonEmpty (by decide +kernel)]
    cases config.archiveBytes with
    | none =>
      rw [map_none, getD_none, get_setNonEmpty (by decide +kernel),
        get_set_of_ne _ _ (by decide +kernel)]
      rfl
    | some bytes =>
      rw [map_some, getD_some, get_set_of_ne _ _ (by decide +kernel),
        get_setNonEmpty (by decide +kernel), get_set_of_ne _ _ (by decide +kernel)]
      rfl
  rw [CatalogDb.gameIndex, hindex]
  rfl

variable {other : PgnArchiveImportConfig} {game : ℕ × String} {games : List (ℕ × String)} {call : UpsertCall}

/-- A run for the same tenant and source, with the same filters, comes to the same sightings. -/
theorem examineGame_sameSighting (h : examineGame env other provider game = .candidate call)
    (htenant : other.tenantId = config.tenantId) (hname : other.sourceName = config.sourceName)
    (hfilters : other.filters = config.filters) :
    ∃ first, examineGame env config provider game = .candidate first ∧ Catalog.SameSighting first call := by
  unfold examineGame at h ⊢
  cases hparse : env.parseChessInput game.2 with
  | error message =>
    rw [hparse] at h
    exact absurd h nofun
  | ok parsed =>
    rw [hparse] at h
    dsimp only at h ⊢
    rw [htenant, hname, hfilters] at h
    split_ifs at h with hmoves hpass
    obtain rfl := ExaminedGame.candidate.inj h
    rw [if_neg hmoves, if_pos hpass]
    refine ⟨_, rfl, rfl, rfl, rfl, rfl, ?_⟩
    exact (gameIndex_sightingMetadata other game.1).trans (gameIndex_sightingMetadata config game.1).symm

theorem candidateCalls_again (h : call ∈ candidateCalls env (config.again other) provider games) :
    ∃ first ∈ candidateCalls env config provider games, Catalog.SameSighting first call := by
  obtain ⟨game, hgame, hcall⟩ := mem_filterMap.mp h
  cases hexamined : examineGame env (config.again other) provider game with
  | error message =>
    rw [hexamined] at hcall
    exact absurd hcall nofun
  | filtered =>
    rw [hexamined] at hcall
    exact absurd hcall nofun
  | candidate candidate =>
    rw [hexamined] at hcall
    obtain rfl := Option.some.inj hcall
    obtain ⟨first, hfirst, hsame⟩ : ∃ first, examineGame env config provider game = .candidate first ∧
        Catalog.SameSighting first candidate := examineGame_sameSighting hexamined rfl rfl rfl
    refine ⟨first, mem_filterMap.mpr ⟨game, hgame, ?_⟩, hsame⟩
    rw [hfirst]
    rfl

/-- A second run stores nothing. -/
theorem runImport_again (hvalid : config.Valid env) (hbatch : ¬ other.batchSize < 1) (catalog : Catalog) :
    ∃ progress catalog' progress' catalog'',
      runImport env { config with dryRun := false } catalog = .ok (progress, catalog') ∧
        runImport env (config.again other) catalog' = .ok (progress', catalog'') ∧
        progress'.inserted = 0 ∧ progress'.linkedSource = 0 := by
  obtain ⟨provider, haccepted⟩ := hvalid
  have haccepted' : Accepted env (config.again other) provider := ⟨hbatch, haccepted.2⟩
  have hfirst : Accepted env { config with dryRun := false } provider := haccepted
  obtain ⟨st, hrun, hafter⟩ := runImport_real hfirst rfl catalog
  obtain ⟨st', hagain, hafter'⟩ := runImport_real haccepted' rfl st.catalog
  refine ⟨_, _, _, _, hrun, hagain, hafter'.again fun call hcall ↦ ?_⟩
  obtain ⟨firstCall, hmem, hsame⟩ := candidateCalls_again hcall
  exact (hafter.recorded firstCall hmem).of_sameSighting hsame

/-! ### The prediction -/

theorem predicted_iff (env : ImportEnv) (config : PgnArchiveImportConfig) (catalog : Catalog) :
    (runImport env { config with dryRun := true } catalog).map reported =
        (runImport env { config with dryRun := false } catalog).map reported ↔
      NewGamesDistinct env config catalog := by
  rcases accepted_or_refused env config with ⟨provider, haccepted⟩ | ⟨hcalls, error, hrefused⟩
  · have hasDry : Accepted env { config with dryRun := true } provider := haccepted
    have hasReal : Accepted env { config with dryRun := false } provider := haccepted
    obtain ⟨dry, hdry, hafter⟩ := runImport_dry hasDry rfl catalog
    obtain ⟨real, hreal, hafter'⟩ := runImport_real hasReal rfl catalog
    have hscanned : dry.progress.scanned = real.progress.scanned := hafter.scanned.trans hafter'.scanned.symm
    have hfiltered : dry.progress.skippedFiltered = real.progress.skippedFiltered :=
      hafter.skippedFiltered.trans hafter'.skippedFiltered.symm
    have herror : dry.progress.skippedError = real.progress.skippedError :=
      hafter.skippedError.trans hafter'.skippedError.symm
    have hcounts : (runImport env { config with dryRun := true } catalog).map reported =
        (runImport env { config with dryRun := false } catalog).map reported ↔
          real.progress.inserted = dry.progress.inserted := by
      rw [hdry, hreal, Except.map, Except.map, Except.ok.injEq, reported, reported, hscanned, hfiltered, herror]
      simp only [Prod.mk.injEq, true_and, and_true]
      exact eq_comm
    have hnew : real.progress.inserted = dry.progress.inserted ↔
        (firstOf UpsertCall.fingerprint (catalog.liveFingerprints config.tenantId) (archiveCalls env config)).length =
          ((archiveCalls env config).filter fun call ↦
            call.fingerprint ∉ catalog.liveFingerprints config.tenantId).length := by
      rw [archiveCalls_of_accepted haccepted, hafter'.inserted, hafter.inserted]
      exact Nat.add_right_inj
    rw [hcounts, hnew]
    exact length_firstOf_eq_iff _
  · rw [hrefused, hrefused, NewGamesDistinct, hcalls]
    exact iff_of_true rfl nodup_nil

/-- A dry run predicts the run, the counters add up and a second run stores nothing: exactly when no fingerprint
that is new to the catalog comes up twice among the games that pass. -/
theorem dry_run_iff (env : ImportEnv) (config other : PgnArchiveImportConfig) (catalog : Catalog) :
    ((runImport env { config with dryRun := true } catalog).map reported =
          (runImport env { config with dryRun := false } catalog).map reported ∧
        (config.Valid env → ∀ dryRun, ∃ progress catalog',
          runImport env { config with dryRun } catalog = .ok (progress, catalog') ∧
            progress.scanned = progress.inserted + progress.linkedSource + progress.skippedDuplicate +
              progress.skippedFiltered + progress.skippedError) ∧
        (config.Valid env → ¬ other.batchSize < 1 → ∃ progress catalog' progress' catalog'',
          runImport env { config with dryRun := false } catalog = .ok (progress, catalog') ∧
            runImport env (config.again other) catalog' = .ok (progress', catalog'') ∧
            progress'.inserted = 0 ∧ progress'.linkedSource = 0)) ↔
      NewGamesDistinct env config catalog := by
  rw [predicted_iff]
  refine and_iff_left ⟨fun hvalid dryRun ↦ ?_, fun hvalid hbatch ↦ runImport_again hvalid hbatch catalog⟩
  obtain ⟨provider, haccepted⟩ := hvalid
  have hvalid' : PgnArchiveImportConfig.Valid { config with dryRun } env := ⟨provider, haccepted⟩
  exact runImport_addsUp hvalid' catalog

/-- A parser that finds one move in every text. -/
def openingMoveEnv : ImportEnv where
  parseChessInput := fun text ↦ .ok
    { startingFen := "rnbqkbnr/pppppppp/8/8/8/8/PPPPPPPP/RNBQKBNR w KQkq - 0 1"
      normalizedPgn := text
      uciMoves := ["e2e4"]
      moveCount := 1
      finalFen := "rnbqkbnr/pppppppp/8/8/4P3/8/PPPP1PPP/RNBQKBNR b KQkq - 0 1"
      result := some "1-0" }
  digest := id
  lower := id
  decimal := fun _ ↦ none

def repeatedGame : PgnArchiveImportConfig :=
  { tenantId := "tenant", fileName := "games.pgn", games := ["1. e4 1-0", "1. e4 1-0"] }

/-- On an empty catalog the dry run says two games are inserted, the run inserts one. -/
theorem repeated_game_inserted_once :
    ((runImport openingMoveEnv { repeatedGame with dryRun := true } {}).map reported).toOption = some (2, 2, 0, 0) ∧
      ((runImport openingMoveEnv { repeatedGame with dryRun := false } {}).map reported).toOption =
        some (2, 1, 0, 0) ∧
      (runImport openingMoveEnv { repeatedGame with dryRun := true } {}).map reported ≠
        (runImport openingMoveEnv { repeatedGame with dryRun := false } {}).map reported := by
  have hdry : ((runImport openingMoveEnv { repeatedGame with dryRun := true } {}).map reported).toOption =
      some (2, 2, 0, 0) := by decide +kernel
  have hreal : ((runImport openingMoveEnv { repeatedGame with dryRun := false } {}).map reported).toOption =
      some (2, 1, 0, 0) := by decide +kernel
  refine ⟨hdry, hreal, fun hsame ↦ ?_⟩
  rw [hsame, hreal] at hdry
  exact absurd hdry (by decide)

end ContentGenerator.ChessIntelligence

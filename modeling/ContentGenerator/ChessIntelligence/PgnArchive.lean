import ContentGenerator.ChessIntelligence.Dedupe
import ContentGenerator.ChessIntelligence.ProviderSync

/-!
# The import of a PGN archive

`PgnArchiveImporter.run` goes through the games of a file: it skips the first ones, stops at a maximum, counts
the games that do not parse or do not pass the filters, and stores the others, in a dry run only looks them up.
One import runs alone here, with the catalog before it as an argument and the catalog after it in the report:
what a commit in between would show to others is left out, and so are the logs, the hooks and the limits of the
columns. The reader of the file and the parser are parameters, `chess.pgn` is behind both.
-/

namespace ContentGenerator.ChessIntelligence

open Lib

/-- `ParsedChessGame`, without its input format, its moves as objects and its SAN moves. -/
structure ParsedChessGame where
  headers : List (String × String) := []
  startingFen : String
  normalizedPgn : String
  uciMoves : List String
  moveCount : ℕ
  finalFen : String
  result : Option String := none
  whitePlayer : Option String := none
  blackPlayer : Option String := none
  event : Option String := none
  date : Option String := none

/-- The parser, the digest, the functions on Unicode text, and the settings. -/
structure ImportEnv where
  /-- `parse_chess_input(text, "pgn")`, or the message of its `ChessParseError`. -/
  parseChessInput : String → Except String ParsedChessGame
  /-- The SHA-256 of a text in hexadecimal digits. -/
  digest : String → String
  /-- `str.lower`. -/
  lower : String → String
  /-- The value of a decimal digit. -/
  decimal : Char → Option ℕ
  defaultMaxGames : Option ℤ := none
  maxGamesCap : ℤ := 50000

/-! ### The rules on providers -/

inductive IntegrationMode
  | documentedApi | bulkDataset | pgnBatch | manual | editorial
  deriving DecidableEq

def IntegrationMode.value : IntegrationMode → String
  | .documentedApi => "documented_api"
  | .bulkDataset => "bulk_dataset"
  | .pgnBatch => "pgn_batch"
  | .manual => "manual"
  | .editorial => "editorial"

/-- `ProviderRule`, as far as files go. -/
structure ProviderRule where
  provider : String
  mode : IntegrationMode
  allowsBulkFile : Bool := false

/-- `PROVIDER_RULES`. -/
def providerRules : List ProviderRule :=
  [{ provider := "lichess_masters", mode := .documentedApi },
    { provider := "lichess_puzzles", mode := .documentedApi, allowsBulkFile := true },
    { provider := "lichess", mode := .documentedApi },
    { provider := "chesscom", mode := .documentedApi },
    { provider := "pgn_archive", mode := .pgnBatch, allowsBulkFile := true },
    { provider := "pgn_mentor", mode := .pgnBatch, allowsBulkFile := true },
    { provider := "manual", mode := .manual },
    { provider := "api_import", mode := .manual },
    { provider := "famous_catalog", mode := .editorial }]

/-- `PROVIDER_RULES.get`. -/
def providerRule (provider : String) : Option ProviderRule := providerRules.find? fun rule ↦ rule.provider = provider

/-- `FORBIDDEN_PROVIDER_TOKENS`. -/
def forbiddenProviderTokens : List String :=
  ["chessgames", "chess_games", "scraper", "scraped", "crawl", "crawler"]

def looksForbiddenProvider (provider : String) : Bool :=
  let tokens := (pySplit '_' (provider.map fun c ↦ if c = '-' then '_' else c)).filter (· ≠ "")
  let compact := String.ofList (provider.toList.filter fun c ↦ c ≠ '_' ∧ c ≠ '-')
  (tokens.any fun token ↦ token ∈ forbiddenProviderTokens) ||
    ["chessgames", "scraper", "crawler"].any fun token ↦ pyIn token compact

/-- `assert_provider_allowed_for_ingest`, with the message of a `ChessSourceRuleError`. -/
def assertProviderAllowedForIngest (env : ImportEnv) (provider : String) : Except String String :=
  let stripped := env.lower (pyStrip provider)
  let normalized := if stripped = "" then "manual" else stripped
  if looksForbiddenProvider normalized then
    .error ("Provider '" ++ normalized ++ "' is not allowed — curated-site scrapers are forbidden " ++
      "(use documented APIs, local PGN/dataset files, or SignalForge famous-game YAML).")
  else if (providerRule normalized).isSome then .ok normalized
  else if ["pgn_", "archive_", "twic_", "local_"].any fun start ↦ pyStartsWith start normalized then .ok normalized
  else
    .error ("Unknown chess provider '" ++ normalized ++ "'. Use a documented provider (" ++
      ", ".intercalate ((providerRules.map (·.provider)).mergeSort fun a b ↦ decide (a ≤ b)) ++
      ") or a pgn_/archive_/twic_/local_ batch label.")

def assertBulkFileAllowed (env : ImportEnv) (provider : String) : Except String String := do
  let normalized ← assertProviderAllowedForIngest env provider
  match providerRule normalized with
  | none => .ok normalized
  | some rule =>
    if !rule.allowsBulkFile ∧ rule.mode ∉ [IntegrationMode.pgnBatch, .bulkDataset, .manual] then
      .error ("Provider '" ++ normalized ++ "' does not allow bulk file ingest (mode=" ++ rule.mode.value ++ ").")
    else if rule.mode = .documentedApi ∧ !rule.allowsBulkFile then
      .error ("Provider '" ++ normalized ++
        "' is live-API only — do not treat HTML scrape dumps as input.")
    else .ok normalized

/-! ### The filters -/

structure SelectiveImportFilters where
  yearFrom : Option ℤ := none
  yearTo : Option ℤ := none
  player : Option String := none
  white : Option String := none
  black : Option String := none
  event : Option String := none
  minRating : Option ℤ := none
  providers : Option (List String) := none

/-- `normalize_player_name`: the runs of letters and digits, in lower case and with blanks between. -/
def normalizePlayerName (env : ImportEnv) (name : String) : String :=
  let kept := fun c : Char ↦ ('a' ≤ c ∧ c ≤ 'z') ∨ ('0' ≤ c ∧ c ≤ '9')
  " ".intercalate ((((env.lower name).toList.splitOnP fun c ↦ ¬ kept c).filter (· ≠ [])).map String.ofList)

def yearFromPgnDate (env : ImportEnv) (gameDate : Option String) : Option ℤ :=
  ((gameDate.bind fun date ↦ (readYear env.decimal (pyStrip date).toList).map fun year ↦ (year.1 : ℤ))).filter
    fun year ↦ 1400 ≤ year ∧ year ≤ 2100

def nonEmpty (text : Option String) : Option String := text.filter (· ≠ "")

def nameContains (env : ImportEnv) (haystack : Option String) (needle : String) : Bool :=
  (nonEmpty haystack).any fun name ↦ pyIn (normalizePlayerName env needle) (normalizePlayerName env name)

def gamePassesSelectiveFilters (env : ImportEnv) (whitePlayer blackPlayer event gameDate : Option String)
    (year whiteRating blackRating : Option ℤ) (sourceProvider : String) (filters : SelectiveImportFilters) : Bool :=
  let resolvedYear := year.or (yearFromPgnDate env gameDate)
  let best := (whiteRating.toList ++ blackRating.toList).max?
  (filters.yearFrom.all fun yearFrom ↦ resolvedYear.any fun year ↦ yearFrom ≤ year) &&
    (filters.yearTo.all fun yearTo ↦ resolvedYear.any fun year ↦ year ≤ yearTo) &&
    ((nonEmpty filters.white).all (nameContains env whitePlayer)) &&
    ((nonEmpty filters.black).all (nameContains env blackPlayer)) &&
    ((nonEmpty filters.player).all fun player ↦
      nameContains env whitePlayer player || nameContains env blackPlayer player) &&
    ((nonEmpty filters.event).all (nameContains env event)) &&
    (filters.minRating.all fun minRating ↦ best.any fun rating ↦ minRating ≤ rating) &&
    filters.providers.all fun providers ↦ env.lower (pyStrip sourceProvider) ∈ providers

/-! ### The game of a parsed text -/

def computeGameFingerprint (env : ImportEnv) (startingFen : String) (uciMoves : List String)
    (result : Option String) : String :=
  let moves := " ".intercalate ((uciMoves.map pyStrip).filterMap fun move ↦
    if move = "" then none else some (env.lower move))
  env.digest (pyStrip startingFen ++ "|" ++ moves ++ "|" ++ pyStrip ((nonEmpty result).getD "*"))

def computeContentHash (env : ImportEnv) (normalizedPgn : String) : String := env.digest (pyStrip normalizedPgn)

/-- `headers.get`. -/
def ParsedChessGame.header (parsed : ParsedChessGame) (name : String) : Option String :=
  (parsed.headers.find? fun header ↦ header.1 = name).map Prod.snd

/-- `chess_game_from_parsed` without overrides. -/
def chessGameFromParsed (env : ImportEnv) (tenantId : String) (parsed : ParsedChessGame)
    (sourceProvider : String) : ChessGame :=
  { tenantId
    gameFingerprint := computeGameFingerprint env parsed.startingFen parsed.uciMoves parsed.result
    contentHash := computeContentHash env parsed.normalizedPgn
    normalizedPgn := parsed.normalizedPgn
    startingFen := parsed.startingFen
    moveCount := parsed.moveCount
    finalFen := some parsed.finalFen
    fields := fun
      | .whitePlayer => parsed.whitePlayer.map .str
      | .blackPlayer => parsed.blackPlayer.map .str
      | .whiteRating | .blackRating => none
      | .event => parsed.event.map .str
      | .site => (parsed.header "Site").map .str
      | .round => (parsed.header "Round").map .str
      | .gameDate => parsed.date.map .str
      | .year => (yearFromPgnDate env parsed.date).map .int
      | .result => parsed.result.map .str
      | .eco => (parsed.header "ECO").map .str
      | .opening => (parsed.header "Opening").map .str
      | .variation => (parsed.header "Variation").map .str
    sourceProvider := some sourceProvider }

/-! ### The catalog of one session -/

/-- A row of `chess_games`. -/
structure CatalogGame where
  game : ChessGame
  deleted : Bool := false

structure Catalog where
  games : KeyedTable ℕ CatalogGame := ⟨[], List.nodup_nil⟩
  sources : List ChessGameSource := []

structure PersistOutcome where
  createdGame : Bool
  createdSource : Bool

inductive ImportError
  | valueError (message : String)
  | integrityError

namespace Catalog

def hasFingerprint (tenantId gameFingerprint : String) (row : CatalogGame) : Bool :=
  !row.deleted && row.game.tenantId = tenantId && row.game.gameFingerprint = gameFingerprint

/-- `get_by_fingerprint`; the unique index keeps a second row out. -/
def getByFingerprint (catalog : Catalog) (tenantId gameFingerprint : String) : Option (ℕ × ChessGame) :=
  (catalog.games.entries.find? fun entry ↦ hasFingerprint tenantId gameFingerprint entry.2).map fun entry ↦
    (entry.1, entry.2.game)

def sourceExists (catalog : Catalog) (gameId : ℕ) (call : UpsertCall) : Bool :=
  match call.source.externalId.filter (· ≠ "") with
  | some externalId => catalog.sources.any fun source ↦
      source.tenantId = call.game.tenantId ∧ source.provider = call.source.provider ∧
        source.externalId = some externalId
  | none => catalog.sources.any (CatalogDb.sameSighting call gameId)

/-- `_attach_source`: whether a row has been added. -/
def attachSource (catalog : Catalog) (call : UpsertCall) (gameId : ℕ) (isPrimary : Bool) : Catalog × Bool :=
  let row := call.sourceRow gameId isPrimary
  if catalog.sourceExists gameId call then (catalog, false)
  else if catalog.sources.any (sameExternalSource row) then (catalog, false)
  else ({ catalog with sources := catalog.sources ++ [row] }, true)

/-- The unique indexes on live games refuse the row. -/
def refuses (catalog : Catalog) (game : ChessGame) : Bool :=
  catalog.games.entries.any fun entry ↦
    !entry.2.deleted && (sameFingerprint game entry.2.game || sameExternalGame game entry.2.game)

/-- `_enrich_sparse_fields` on the row of a game. -/
def enrich (catalog : Catalog) (gameId : ℕ) (target incoming : ChessGame) : Catalog :=
  { catalog with games := catalog.games.modify gameId fun row ↦
      { row with game := (enrichSparseFields target incoming).assign row.game } }

/-- `repo.add`. -/
def addGame (catalog : Catalog) (game : ChessGame) : Catalog :=
  { catalog with games := catalog.games.insertNew catalog.games.nextKey { game } }

/-- `upsert_game`. When an index refuses the game there is no row of its fingerprint to load again. -/
def upsertGame (catalog : Catalog) (call : UpsertCall) : Except ImportError (Catalog × PersistOutcome) :=
  match catalog.getByFingerprint call.game.tenantId call.game.gameFingerprint with
  | some (gameId, target) =>
    let attached := (catalog.enrich gameId target call.game).attachSource call gameId false
    .ok (attached.1, { createdGame := false, createdSource := attached.2 })
  | none =>
    if catalog.refuses call.sourcedGame then .error .integrityError
    else
      let attached := (catalog.addGame call.sourcedGame).attachSource call catalog.games.nextKey true
      .ok (attached.1, { createdGame := true, createdSource := attached.2 })

end Catalog

/-! ### The run -/

/-- `PgnArchiveImportConfig`. `games` is the file as `chess.pgn` reads it, one exported text a game. -/
structure PgnArchiveImportConfig where
  tenantId : String
  fileName : String
  games : List String
  provider : String := "pgn_archive"
  sourceName : String := "archive"
  batchSize : ℤ := 100
  dryRun : Bool := false
  skipGames : ℤ := 0
  maxGames : Option ℤ := none
  importBatchId : Option String := none
  /-- The value of `str(uuid.uuid4())`. -/
  newBatchId : String := ""
  ingestionMode : String := "historical_bootstrap"
  archiveSha256 : Option String := none
  archiveBytes : Option ℤ := none
  archiveUri : Option String := none
  archiveVersion : Option String := none
  filters : SelectiveImportFilters := {}

structure ImportProgress where
  scanned : ℕ := 0
  inserted : ℕ := 0
  linkedSource : ℕ := 0
  skippedDuplicate : ℕ := 0
  skippedFiltered : ℕ := 0
  skippedError : ℕ := 0
  batchesCommitted : ℕ := 0
  errorSamples : List String := []

def ImportProgress.recordError (progress : ImportProgress) (message : String) : ImportProgress :=
  { progress with
    skippedError := progress.skippedError + 1
    errorSamples :=
      if progress.errorSamples.length < 25 then progress.errorSamples ++ [message] else progress.errorSamples }

/-- `iter_pgn_games`: the index of a game in the file, and its text unless that is empty. -/
def iterPgnGames (games : List String) : List (ℕ × String) :=
  (games.zipIdx 1).filterMap fun game ↦
    if pyStrip game.1 = "" then none else some (game.2, pyStrip game.1 ++ "\n")

def clampPgnImportMaxGames (env : ImportEnv) (maxGames : Option ℤ) : Option ℤ :=
  (maxGames.or env.defaultMaxGames).map fun value ↦ min (max value 1) env.maxGamesCap

def setNonEmpty (metadata : JsonObject) (key : String) (text : Option String) : JsonObject :=
  match nonEmpty text with
  | some value => metadata.set key (.str value)
  | none => metadata

def PgnArchiveImportConfig.batchId (config : PgnArchiveImportConfig) : String :=
  (nonEmpty config.importBatchId).getD config.newBatchId

/-- `meta`, the metadata of a sighting. -/
def PgnArchiveImportConfig.sightingMetadata (config : PgnArchiveImportConfig) (gameIndex : ℕ) : JsonObject :=
  let stamped := JsonObject.set
    [("source_name", .str config.sourceName), ("archive_file", .str config.fileName),
      ("game_index", .int gameIndex), ("import_batch", .str config.batchId)]
    "ingestion_mode" (.str config.ingestionMode)
  let hashed := setNonEmpty stamped "archive_sha256" config.archiveSha256
  let sized := (config.archiveBytes.map fun bytes ↦
    hashed.set "archive_bytes" (.int bytes)).getD hashed
  setNonEmpty (setNonEmpty sized "archive_uri" config.archiveUri) "archive_version" config.archiveVersion

/-- What the loop finds out about a game before it asks the catalog. -/
inductive ExaminedGame
  | error (message : String)
  | filtered
  | candidate (call : UpsertCall)

/-- The loop body up to the filters, and the call that it comes to. -/
def examineGame (env : ImportEnv) (config : PgnArchiveImportConfig) (provider : String) (game : ℕ × String) :
    ExaminedGame :=
  match env.parseChessInput game.2 with
  | .error message => .error ("game " ++ toString game.1 ++ ": " ++ message)
  | .ok parsed =>
    if parsed.moveCount < 1 then .error ("game " ++ toString game.1 ++ ": no legal moves")
    else if gamePassesSelectiveFilters env parsed.whitePlayer parsed.blackPlayer parsed.event parsed.date
        (yearFromPgnDate env parsed.date) none none provider config.filters then
      .candidate
        { game := chessGameFromParsed env config.tenantId parsed provider
          source :=
            { provider
              sourceName := some config.sourceName
              sourceMetadata := config.sightingMetadata game.1
              importBatchId := some config.batchId } }
    else .filtered

/-- What a run has between two games. -/
structure ImportState where
  catalog : Catalog
  progress : ImportProgress := {}
  pendingSinceCommit : ℤ := 0

/-- The counters after a game has been stored. -/
def ImportProgress.recordOutcome (progress : ImportProgress) (outcome : PersistOutcome) : ImportProgress :=
  if outcome.createdGame then { progress with inserted := progress.inserted + 1 }
  else if outcome.createdSource then { progress with linkedSource := progress.linkedSource + 1 }
  else { progress with skippedDuplicate := progress.skippedDuplicate + 1 }

/-- A game has been stored: every `batch_size` games there is a commit. -/
def ImportState.countPending (st : ImportState) (batchSize : ℤ) : ImportState :=
  if batchSize ≤ st.pendingSinceCommit + 1 then
    { st with
      progress := { st.progress with batchesCommitted := st.progress.batchesCommitted + 1 }
      pendingSinceCommit := 0 }
  else { st with pendingSinceCommit := st.pendingSinceCommit + 1 }

/-- The loop body for a game that is not skipped. -/
def importGame (env : ImportEnv) (config : PgnArchiveImportConfig) (provider : String) (st : ImportState)
    (game : ℕ × String) : Except ImportError ImportState :=
  let progress := { st.progress with scanned := st.progress.scanned + 1 }
  match examineGame env config provider game with
  | .error message => .ok { st with progress := progress.recordError message }
  | .filtered => .ok { st with progress := { progress with skippedFiltered := progress.skippedFiltered + 1 } }
  | .candidate call =>
    if config.dryRun then
      match st.catalog.getByFingerprint config.tenantId call.game.gameFingerprint with
      | none => .ok { st with progress := { progress with inserted := progress.inserted + 1 } }
      | some _ => .ok { st with progress := { progress with linkedSource := progress.linkedSource + 1 } }
    else do
      let (catalog, outcome) ← st.catalog.upsertGame call
      .ok (({ st with catalog, progress := progress.recordOutcome outcome }).countPending config.batchSize)

/-- The loop over the games of the file. -/
def importGames (env : ImportEnv) (config : PgnArchiveImportConfig) (provider : String) (maxGames : Option ℤ) :
    List (ℕ × String) → ImportState → Except ImportError ImportState
  | [], st => .ok st
  | game :: rest, st =>
    if (game.1 : ℤ) ≤ config.skipGames then importGames env config provider maxGames rest st
    else if maxGames.any fun maxGames ↦ maxGames ≤ (st.progress.scanned : ℤ) then .ok st
    else do
      let next ← importGame env config provider st game
      importGames env config provider maxGames rest next

/-- `PgnArchiveImporter.run`, with the catalog that it leaves. -/
def runImport (env : ImportEnv) (config : PgnArchiveImportConfig) (catalog : Catalog) :
    Except ImportError (ImportProgress × Catalog) :=
  if config.batchSize < 1 then .error (.valueError "batch_size must be >= 1")
  else
    match assertBulkFileAllowed env config.provider with
    | .error message => .error (.valueError message)
    | .ok provider => do
      let st ← importGames env config provider (clampPgnImportMaxGames env config.maxGames)
        (iterPgnGames config.games) { catalog }
      if !config.dryRun ∧ st.pendingSinceCommit ≠ 0 then
        .ok ({ st.progress with batchesCommitted := st.progress.batchesCommitted + 1 }, st.catalog)
      else .ok (st.progress, st.catalog)

end ContentGenerator.ChessIntelligence

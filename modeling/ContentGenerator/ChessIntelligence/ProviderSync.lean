import ContentGenerator.Lib.KeyedTable
import ContentGenerator.Lib.PyValue
import Mathlib.Algebra.Ring.Nat
import Mathlib.Order.Nat
import Mathlib.Data.Nat.Find

/-!
# Discovering games at a provider

`provider_sync` with its durable checkpoint: the row of the feed is loaded or created, the window of the run
goes from the high-water mark minus a lookback to now, the provider is searched for the years of the window,
the games of the answer that are dated in the window are stored up to `max_games`, and the mark is put to the
end of the window when none of them has failed.

Times are microseconds since the day before the first of January of the year 1. What a provider has answered,
which games could be stored and how the run ends are parts of a run. Columns that nothing here reads and the
analysis of new games are left out.
-/

namespace ContentGenerator.ChessIntelligence

open Lib

/-! ### The calendar -/

/-- `timedelta(seconds=n)`. -/
def seconds (n : ℤ) : ℤ := n * 1000000

/-- `timedelta(days=1)`. -/
def oneDay : ℤ := seconds 86400

def isLeap (year : ℕ) : Bool := year % 4 = 0 && (year % 100 ≠ 0 || year % 400 = 0)

def daysInMonth (year month : ℕ) : ℕ :=
  if month = 2 then if isLeap year then 29 else 28
  else if month = 4 ∨ month = 6 ∨ month = 9 ∨ month = 11 then 30 else 31

def daysBeforeYear (year : ℕ) : ℕ := (year - 1) * 365 + (year - 1) / 4 - (year - 1) / 100 + (year - 1) / 400

def daysBeforeMonth (year month : ℕ) : ℕ :=
  ((List.range (month - 1)).map fun before ↦ daysInMonth year (before + 1)).sum

/-- `datetime(year, month, day, tzinfo=timezone.utc)`, which refuses what is no date. -/
def datetime (year month day : ℕ) : Option ℤ :=
  if 1 ≤ year ∧ 1 ≤ month ∧ month ≤ 12 ∧ 1 ≤ day ∧ day ≤ daysInMonth year month then
    some ((daysBeforeYear year + daysBeforeMonth year month + day : ℕ) * oneDay)
  else none

def yearOf (time : ℤ) : ℕ :=
  Nat.findGreatest (fun year ↦ daysBeforeYear year < (time / oneDay).toNat) ((time / oneDay).toNat / 365 + 1)

example : (datetime 2024 2 29).map yearOf = some 2024 := by decide +kernel

/-! ### What is called -/

/-- The built-in functions, the digest, the policy and the settings. -/
structure SyncEnv where
  /-- `str()` of floats and containers. -/
  render : Json → String
  /-- `int()`. -/
  toInt : Json → Option ℤ
  /-- The value of a decimal digit. -/
  decimal : Char → Option ℕ
  /-- The SHA-256 of the dump with sorted keys. -/
  digest : JsonObject → String
  /-- Whether `policy_from_params` returns. -/
  policyFromParams : JsonObject → Bool
  defaultMaxGames : ℤ
  maxGamesCap : ℤ

structure ChessGameSearchQuery where
  moves : Option String
  fen : Option String
  yearFrom : ℤ
  yearTo : ℤ
  maxGames : ℕ
  player : Option String
  white : Option String
  black : Option String

/-- `ExternalChessGameSummary`, of which the run reads the id and the date. -/
structure ExternalChessGameSummary where
  externalId : String
  gameDate : Option String := none

/-! ### Feeds -/

/-- The unique key of `ChessProviderSyncState`. -/
structure FeedKey where
  tenantId : String
  provider : String
  syncKey : String
  deriving DecidableEq

structure ChessProviderSyncState where
  queryHash : String
  highWaterMark : Option ℤ := none
  lookbackSeconds : ℤ
  lastAttemptAt : Option ℤ := none
  lastSuccessAt : Option ℤ := none
  lastErrorSummary : Option String := none

/-- `normalize_sync_query`: the identity of the feed, without the sliding years. -/
def normalizeSyncQuery (params : JsonObject) : JsonObject :=
  ["moves", "fen", "player", "white", "black", "sync_key"].filterMap fun key ↦
    match params.get key with
    | none | some .null => none
    | some value => if value = .str "" then none else some (key, value)

def computeQueryHash (env : SyncEnv) (params : JsonObject) : String := env.digest (normalizeSyncQuery params)

/-- `str(params.get(key) or "").strip()`. -/
def strippedText (env : SyncEnv) (params : JsonObject) (key : String) : String :=
  pyStrip (((params.getTruthy key).map (Json.text env.render)).getD "")

def defaultSyncKey (env : SyncEnv) (provider : String) (params : JsonObject) : String :=
  let explicit := strippedText env params "sync_key"
  let player := pyLower (strippedText env params "player")
  if explicit ≠ "" then pyTake 128 explicit
  else if provider = "chesscom" ∧ player ≠ "" then pyTake 128 ("chesscom:" ++ player)
  else "default"

/-! ### The window -/

structure SyncQueryWindow where
  windowStart : ℤ
  windowEnd : ℤ
  yearFrom : ℤ
  yearTo : ℤ

def computeIncrementalWindow (highWaterMark : Option ℤ) (lookbackSeconds now : ℤ)
    (bootstrapLookbackSeconds explicitYearFrom explicitYearTo : Option ℤ) : SyncQueryWindow :=
  let lookback := max 0 lookbackSeconds
  let start :=
    match highWaterMark with
    | some mark => mark - seconds lookback
    | none =>
      now - seconds (max lookback (min (bootstrapLookbackSeconds.getD (max lookback (7 * 86400))) (365 * 86400)))
  let windowStart := if start > now then now else start
  let yearFrom := explicitYearFrom.getD (yearOf windowStart)
  let yearTo := explicitYearTo.getD (yearOf now)
  { windowStart
    windowEnd := now
    yearFrom := min yearFrom yearTo
    yearTo := max yearFrom yearTo }

def readDigits (decimal : Char → Option ℕ) : List Char → Option (ℕ × List Char)
  | [] => none
  | c :: rest =>
    (decimal c).map fun value ↦
      match rest with
      | [] => (value, [])
      | c' :: rest' =>
        match decimal c' with
        | some value' => (10 * value + value', rest')
        | none => (value, rest)

/-- A separator and one or two digits. -/
def readPart (decimal : Char → Option ℕ) : List Char → Option (ℕ × List Char)
  | [] => none
  | c :: rest => if c = '.' ∨ c = '-' ∨ c = '/' then readDigits decimal rest else none

def readYear (decimal : Char → Option ℕ) : List Char → Option (ℕ × List Char)
  | c₁ :: c₂ :: c₃ :: c₄ :: rest =>
    match decimal c₁, decimal c₂, decimal c₃, decimal c₄ with
    | some d₁, some d₂, some d₃, some d₄ => some (1000 * d₁ + 100 * d₂ + 10 * d₃ + d₄, rest)
    | _, _, _, _ => none
  | _ => none

def parseGameDate (decimal : Char → Option ℕ) (value : Option String) : Option ℤ :=
  match readYear decimal (pyStrip (value.getD "")).toList with
  | none => none
  | some (year, rest) =>
    match readPart decimal rest with
    | none => datetime year 1 1
    | some (month, rest) =>
      match readPart decimal rest with
      | none => datetime year month 1
      | some (day, _) => datetime year month day

/-- `game_date_in_window`, which keeps unknown dates. -/
def gameDateInWindow (decimal : Char → Option ℕ) (gameDate : Option String) (window : SyncQueryWindow) : Bool :=
  match parseGameDate decimal gameDate with
  | none => true
  | some date => window.windowStart ≤ date ∧ date ≤ window.windowEnd + oneDay

/-! ### A run -/

/-- How a run ends: it comes to its end, it raises after it has attempted some games, which the job records, or
its transaction is rolled back. -/
inductive RunEnding
  | completes
  | raises (attempted : ℕ)
  | rolledBack
  deriving DecidableEq

/-- A job of `provider_sync`: what the provider answers to the search, and which games of the batch can be
fetched, normalized and stored. -/
structure SyncRun where
  tenantId : String
  params : JsonObject
  now : ℤ
  search : ChessGameSearchQuery → Option (List ExternalChessGameSummary)
  upserts : ℕ → Bool
  ending : RunEnding := .completes

/-- What the run reads from its parameters before the row of the feed is touched. -/
structure SyncRequest where
  key : FeedKey
  queryHash : String
  lookback : ℤ
  givesLookback : Bool
  maxGames : ℕ

/-- `int(value) if value is not None else default`. -/
def intOr (env : SyncEnv) (value : Option Json) : Option (Option ℤ) :=
  match value with
  | none | some .null => some none
  | some value => (env.toInt value).map some

def clampProviderSyncMaxGames (env : SyncEnv) (maxGames : Option ℤ) : ℕ :=
  (min (max (maxGames.getD env.defaultMaxGames) 1) env.maxGamesCap).toNat

/-- The beginning of `provider_sync`, when nothing of it raises. -/
def SyncRun.request (env : SyncEnv) (run : SyncRun) : Option SyncRequest := do
  let provider := Json.text env.render (← run.params.get "provider")
  let maxGames ← intOr env (run.params.get "max_games")
  if env.policyFromParams run.params then
    let lookback ← env.toInt ((run.params.getTruthy "lookback_seconds").getD (.int 86400))
    some
      { key := ⟨run.tenantId, provider, defaultSyncKey env provider run.params⟩
        queryHash := computeQueryHash env run.params
        lookback := max 0 (min lookback (30 * 86400))
        givesLookback := ((run.params.get "lookback_seconds").filter (· ≠ .null)).isSome
        maxGames := clampProviderSyncMaxGames env maxGames }
  else none

/-- A search: the feed, the identity of its query, the window and the answer. -/
structure FeedSearch where
  key : FeedKey
  queryHash : String
  window : SyncQueryWindow
  summaries : List ExternalChessGameSummary

/-- The rows of the feeds, the searches that have been made, and the games that have been passed to
`upsert_game` with success, each as a tenant, a provider and an external id. -/
structure SyncDb where
  states : KeyedTable FeedKey ChessProviderSyncState := ⟨[], List.nodup_nil⟩
  searches : List FeedSearch := []
  passed : List (String × String × String) := []

/-- `get_or_create` and `mark_attempt`: the row of the feed as the run goes on with it. -/
def SyncDb.getOrCreate (db : SyncDb) (request : SyncRequest) (now : ℤ) : ChessProviderSyncState :=
  match db.states.find request.key with
  | some state =>
    { state with
      queryHash := request.queryHash
      lookbackSeconds := if request.givesLookback then request.lookback else state.lookbackSeconds
      lastAttemptAt := some now }
  | none => { queryHash := request.queryHash, lookbackSeconds := request.lookback, lastAttemptAt := some now }

def ChessProviderSyncState.markSuccess (state : ChessProviderSyncState) (now highWaterMark : ℤ) :
    ChessProviderSyncState :=
  { state with
    lastSuccessAt := some now
    lastAttemptAt := state.lastAttemptAt.or (some now)
    lastErrorSummary := none
    highWaterMark := some highWaterMark }

def ChessProviderSyncState.markFailure (state : ChessProviderSyncState) (now : ℤ) (errorSummary : String) :
    ChessProviderSyncState :=
  { state with lastAttemptAt := some now, lastErrorSummary := some (pyTake 2000 errorSummary) }

def stripOptional : Option Json → Option (Option String)
  | none | some .null => some none
  | some (.str value) => some (if pyStrip value = "" then none else some (pyStrip value))
  | some _ => none

def SyncRun.query (run : SyncRun) (window : SyncQueryWindow) (maxGames : ℕ) : Option ChessGameSearchQuery := do
  let moves ← stripOptional (run.params.get "moves")
  let fen ← stripOptional (run.params.get "fen")
  let player ← stripOptional (run.params.get "player")
  let white ← stripOptional (run.params.get "white")
  let black ← stripOptional (run.params.get "black")
  if 1400 ≤ window.yearFrom ∧ window.yearFrom ≤ 2100 ∧ 1400 ≤ window.yearTo ∧ window.yearTo ≤ 2100 ∧
      1 ≤ maxGames ∧ maxGames ≤ 100 then
    some { moves, fen, yearFrom := window.yearFrom, yearTo := window.yearTo, maxGames, player, white, black }
  else none

/-- The search of the run, when nothing raises before it is answered. -/
def SyncRun.discovery (env : SyncEnv) (run : SyncRun) (request : SyncRequest) (state : ChessProviderSyncState) :
    Option FeedSearch := do
  let bootstrap ← intOr env (run.params.get "bootstrap_lookback_seconds")
  let yearFrom ← intOr env (run.params.get "year_from")
  let yearTo ← intOr env (run.params.get "year_to")
  let window := computeIncrementalWindow state.highWaterMark state.lookbackSeconds run.now bootstrap yearFrom yearTo
  let summaries ← run.search (← run.query window request.maxGames)
  some { key := request.key, queryHash := request.queryHash, window, summaries }

/-- The games of the answer that the run takes. -/
def FeedSearch.batch (search : FeedSearch) (decimal : Char → Option ℕ) (maxGames : ℕ) :
    List ExternalChessGameSummary :=
  (search.summaries.filter fun summary ↦ gameDateInWindow decimal summary.gameDate search.window).take maxGames

def SyncRun.stored (run : SyncRun) (batch : List ExternalChessGameSummary) : List ExternalChessGameSummary :=
  (batch.zipIdx.filter fun entry ↦ run.upserts entry.2).map Prod.fst

/-- The number of games that fail. -/
def SyncRun.errors (run : SyncRun) (batch : List ExternalChessGameSummary) : ℕ :=
  (batch.zipIdx.filter fun entry ↦ !run.upserts entry.2).length

/-- The games that are stored when the transaction is committed. -/
def SyncRun.taken (run : SyncRun) (batch : List ExternalChessGameSummary) : List ExternalChessGameSummary :=
  match run.ending with
  | .completes => run.stored batch
  | .raises attempted => run.stored (batch.take attempted)
  | .rolledBack => []

/-- The run comes to its end and no game has failed. -/
def SyncRun.clean (run : SyncRun) (batch : List ExternalChessGameSummary) : Bool :=
  match run.ending with
  | .completes => run.errors batch = 0
  | _ => false

def SyncRun.finish (run : SyncRun) (state : ChessProviderSyncState) (windowEnd : ℤ)
    (batch : List ExternalChessGameSummary) : ChessProviderSyncState :=
  match run.ending with
  | .completes =>
    if run.errors batch = 0 then state.markSuccess run.now windowEnd
    else state.markFailure run.now
      (toString (run.errors batch) ++ " game fetch/normalize failures of " ++ toString batch.length ++
        " attempted")
  | _ => state

/-- The row of the feed is written, unless the transaction is rolled back. -/
def SyncDb.store (db : SyncDb) (run : SyncRun) (key : FeedKey) (state : ChessProviderSyncState) : SyncDb :=
  match run.ending with
  | .rolledBack => db
  | _ => { db with states := db.states.put key state }

/-- `provider_sync`, as `process_job` runs it. -/
def providerSync (env : SyncEnv) (db : SyncDb) (run : SyncRun) : SyncDb :=
  match run.request env with
  | none => db
  | some request =>
    let state := db.getOrCreate request run.now
    match run.discovery env request state with
    | none => db.store run request.key state
    | some search =>
      let batch := search.batch env.decimal request.maxGames
      { db.store run request.key (run.finish state search.window.windowEnd batch) with
        searches := db.searches ++ [search]
        passed := db.passed ++ (run.taken batch).map fun summary ↦
          (request.key.tenantId, request.key.provider, summary.externalId) }

end ContentGenerator.ChessIntelligence

import ContentGenerator.Lib.KeyedTable
import ContentGenerator.Lib.Play
import ContentGenerator.Lib.PyValue
import Mathlib.Logic.Function.Basic

/-!
# Storing games and their sources

`upsert_game` as transactions run it beside each other. A call goes from statement to statement: it looks the
fingerprint up, inserts the game in a savepoint, looks again when a unique index refuses it, fills blank
columns of a game that is there, and attaches the source. Between two statements other transactions run. A
transaction sees what is committed and what it has written itself; an insert that collides with a row of a
transaction under way waits for it, and so does an update of a row that another one has updated.

Ids stand for UUIDs. Columns that nothing here reads are left out. No game is deleted.
-/

namespace ContentGenerator.ChessIntelligence

open Lib

/-! ### Rows -/

/-- The columns that `_enrich_sparse_fields` fills. -/
inductive CatalogField
  | whitePlayer | blackPlayer | whiteRating | blackRating | event | site | round | gameDate | year | result
  | eco | opening | variation
  deriving DecidableEq

def catalogFields : List CatalogField :=
  [.whitePlayer, .blackPlayer, .whiteRating, .blackRating, .event, .site, .round, .gameDate, .year, .result,
    .eco, .opening, .variation]

theorem mem_catalogFields (field : CatalogField) : field ∈ catalogFields := by
  cases field <;> decide

structure ChessGame where
  tenantId : String
  gameFingerprint : String
  contentHash : String
  normalizedPgn : String
  startingFen : String
  moveCount : ℕ
  finalFen : Option String := none
  fields : CatalogField → Option Json := fun _ ↦ none
  sourceProvider : Option String := none
  sourceExternalId : Option String := none

/-- The columns of `IMMUTABLE_GAME_FIELDS`. -/
def ChessGame.immutableFields (game : ChessGame) :
    String × String × String × String × ℕ × Option String :=
  (game.normalizedPgn, game.gameFingerprint, game.contentHash, game.startingFen, game.moveCount, game.finalFen)

structure SourceRef where
  provider : String
  externalId : Option String := none
  sourceName : Option String := none
  sourceMetadata : JsonObject := []
  importBatchId : Option String := none

structure ChessGameSource where
  tenantId : String
  chessGameId : ℕ
  provider : String
  externalId : Option String
  sourceName : Option String
  sourceMetadata : JsonObject
  importBatchId : Option String
  isPrimary : Bool

/-- The arguments of `upsert_game`. -/
structure UpsertCall where
  game : ChessGame
  source : SourceRef

def UpsertCall.sourcedGame (call : UpsertCall) : ChessGame :=
  { call.game with sourceProvider := some call.source.provider, sourceExternalId := call.source.externalId }

def UpsertCall.sourceRow (call : UpsertCall) (chessGameId : ℕ) (isPrimary : Bool) : ChessGameSource :=
  { tenantId := call.game.tenantId
    chessGameId
    provider := call.source.provider
    externalId := call.source.externalId
    sourceName := call.source.sourceName
    sourceMetadata := call.source.sourceMetadata
    importBatchId := call.source.importBatchId
    isPrimary }

structure GameUpdate where
  fields : CatalogField → Option Json
  finalFen : Option String

def GameUpdate.isEmpty (update : GameUpdate) : Bool :=
  (catalogFields.all fun field ↦ (update.fields field).isNone) && update.finalFen.isNone

def GameUpdate.assign (update : GameUpdate) (game : ChessGame) : ChessGame :=
  { game with
    fields := fun field ↦ (update.fields field).or (game.fields field)
    finalFen := update.finalFen.or game.finalFen }

/-- `_enrich_sparse_fields`: what is blank is taken from the later sighting. -/
def enrichSparseFields (target incoming : ChessGame) : GameUpdate where
  fields field := if (target.fields field).isNone then incoming.fields field else none
  finalFen := if target.finalFen.isNone then incoming.finalFen else none

/-! ### Transactions -/

/-- A row and the transaction that has inserted it, until that one is committed. -/
structure Written (α : Type) where
  row : α
  writer : Option ℕ

/-- A transaction sees the row: it is committed, or its own. -/
def Written.SeenBy {α : Type} (transaction : ℕ) (written : Written α) : Prop :=
  written.writer = none ∨ written.writer = some transaction

instance {α : Type} (transaction : ℕ) (written : Written α) : Decidable (written.SeenBy transaction) :=
  inferInstanceAs (Decidable (_ ∨ _))

def committedRow {α : Type} (transaction : ℕ) (written : Written α) : Written α :=
  { written with writer := written.writer.filter (· ≠ transaction) }

structure PendingUpdate where
  writer : ℕ
  gameId : ℕ
  update : GameUpdate

/-- The statement of a call that comes next. -/
inductive Stage
  | idle
  | looking (call : UpsertCall)
  | inserting (call : UpsertCall)
  | reloading (call : UpsertCall)
  | updating (call : UpsertCall) (gameId : ℕ) (update : GameUpdate)
  | attaching (call : UpsertCall) (gameId : ℕ) (isPrimary : Bool)
  | addingSource (call : UpsertCall) (gameId : ℕ) (isPrimary : Bool)

def Stage.call : Stage → Option UpsertCall
  | .idle => none
  | .looking call | .inserting call | .reloading call => some call
  | .updating call _ _ | .attaching call _ _ | .addingSource call _ _ => some call

/-- The tables with the rows of the transactions under way, the statement that each transaction is at, the
calls that have returned, each with the transaction that its rows belong to, and those that have raised. -/
structure CatalogDb where
  games : KeyedTable ℕ (Written ChessGame) := ⟨[], List.nodup_nil⟩
  sources : List (Written ChessGameSource) := []
  updates : List PendingUpdate := []
  stages : ℕ → Stage := fun _ ↦ .idle
  returned : List (Written UpsertCall) := []
  failed : List UpsertCall := []

namespace CatalogDb

def setStage (db : CatalogDb) (transaction : ℕ) (stage : Stage) : CatalogDb :=
  { db with stages := Function.update db.stages transaction stage }

def finish (db : CatalogDb) (transaction : ℕ) (call : UpsertCall) : CatalogDb :=
  { db.setStage transaction .idle with returned := db.returned ++ [⟨call, some transaction⟩] }

def fail (db : CatalogDb) (transaction : ℕ) (call : UpsertCall) : CatalogDb :=
  { db.setStage transaction .idle with failed := db.failed ++ [call] }

def updated (db : CatalogDb) (transaction gameId : ℕ) (game : ChessGame) : ChessGame :=
  (db.updates.filter fun pending ↦ pending.writer = transaction ∧ pending.gameId = gameId).foldl
    (fun game pending ↦ pending.update.assign game) game

def getByFingerprint (db : CatalogDb) (transaction : ℕ) (tenantId gameFingerprint : String) :
    Option (ℕ × ChessGame) :=
  (db.games.entries.find? fun entry ↦
    entry.2.SeenBy transaction ∧ entry.2.row.tenantId = tenantId ∧
      entry.2.row.gameFingerprint = gameFingerprint).map fun entry ↦
        (entry.1, db.updated transaction entry.1 entry.2.row)

/-- `metadata.get("game_index")`. -/
def gameIndex (metadata : JsonObject) : Option Json := (metadata.get "game_index").filter (· ≠ .null)

def sameSighting (call : UpsertCall) (gameId : ℕ) (source : ChessGameSource) : Bool :=
  source.tenantId = call.game.tenantId ∧ source.chessGameId = gameId ∧ source.provider = call.source.provider ∧
    source.externalId = none ∧ (call.source.sourceName.all fun name ↦ source.sourceName = some name) ∧
      (gameIndex call.source.sourceMetadata).all fun index ↦ gameIndex source.sourceMetadata = some index

def sourceExists (db : CatalogDb) (transaction gameId : ℕ) (call : UpsertCall) : Bool :=
  match call.source.externalId.filter (· ≠ "") with
  | some externalId => db.sources.any fun source ↦
      source.SeenBy transaction ∧ source.row.tenantId = call.game.tenantId ∧
        source.row.provider = call.source.provider ∧ source.row.externalId = some externalId
  | none => db.sources.any fun source ↦ source.SeenBy transaction ∧ sameSighting call gameId source.row

/-! ### Unique indexes -/

end CatalogDb

/-- What a unique index says to an insert. -/
inductive UniqueCheck
  | free | waits | violated
  deriving DecidableEq

/-- The answer for the rows with the same key. -/
def uniqueCheck {α : Type} (transaction : ℕ) (conflicts : List (Written α)) : UniqueCheck :=
  if conflicts.any fun conflict ↦ ¬ conflict.SeenBy transaction then .waits
  else if conflicts.isEmpty then .free
  else .violated

/-- `uq_chess_games_tenant_id_game_fingerprint`. -/
def sameFingerprint (game other : ChessGame) : Bool :=
  other.tenantId = game.tenantId && other.gameFingerprint = game.gameFingerprint

/-- `uq_chess_games_tenant_provider_external`. -/
def sameExternalGame (game other : ChessGame) : Bool :=
  game.sourceExternalId.isSome && other.tenantId = game.tenantId &&
    other.sourceProvider = game.sourceProvider && other.sourceExternalId = game.sourceExternalId

/-- `uq_chess_game_sources_tenant_provider_external`. -/
def sameExternalSource (source other : ChessGameSource) : Bool :=
  source.externalId.isSome && other.tenantId = source.tenantId && other.provider = source.provider &&
    other.externalId = source.externalId

namespace CatalogDb

/-- The games that collide with one in an index. -/
def conflicts (db : CatalogDb) (same : ChessGame → Bool) : List (Written ChessGame) :=
  (db.games.entries.map Prod.snd).filter fun written ↦ same written.row

/-- The unique indexes at the insert of a game, the one on fingerprints first. -/
def gameCheck (db : CatalogDb) (transaction : ℕ) (game : ChessGame) : UniqueCheck :=
  match uniqueCheck transaction (db.conflicts (sameFingerprint game)) with
  | .free => uniqueCheck transaction (db.conflicts (sameExternalGame game))
  | check => check

def sourceCheck (db : CatalogDb) (transaction : ℕ) (source : ChessGameSource) : UniqueCheck :=
  uniqueCheck transaction (db.sources.filter fun written ↦ sameExternalSource source written.row)

def locked (db : CatalogDb) (transaction gameId : ℕ) : Bool :=
  db.updates.any fun pending ↦ pending.gameId = gameId ∧ pending.writer ≠ transaction

/-! ### The statements of a call -/

def insertGame (db : CatalogDb) (transaction : ℕ) (call : UpsertCall) : CatalogDb :=
  { db.setStage transaction (.attaching call db.games.nextKey true) with
    games := db.games.insertNew db.games.nextKey ⟨call.sourcedGame, some transaction⟩ }

def updateGame (db : CatalogDb) (transaction : ℕ) (call : UpsertCall) (gameId : ℕ) (update : GameUpdate) :
    CatalogDb :=
  { db.setStage transaction (.attaching call gameId false) with
    updates := db.updates ++ [⟨transaction, gameId, update⟩] }

def insertSource (db : CatalogDb) (transaction : ℕ) (call : UpsertCall) (gameId : ℕ) (isPrimary : Bool) :
    CatalogDb :=
  { db.finish transaction call with
    sources := db.sources ++ [⟨call.sourceRow gameId isPrimary, some transaction⟩] }

/-- A game has been found: the blank columns are computed from the row that has been read. -/
def found (db : CatalogDb) (transaction : ℕ) (call : UpsertCall) (entry : ℕ × ChessGame) : CatalogDb :=
  db.setStage transaction (.updating call entry.1 (enrichSparseFields entry.2 call.game))

/-- One statement of the call that a transaction is in; one that waits changes nothing. -/
def advance (db : CatalogDb) (transaction : ℕ) : CatalogDb :=
  match db.stages transaction with
  | .idle => db
  | .looking call =>
    match db.getByFingerprint transaction call.game.tenantId call.game.gameFingerprint with
    | some entry => db.found transaction call entry
    | none => db.setStage transaction (.inserting call)
  | .inserting call =>
    match db.gameCheck transaction call.sourcedGame with
    | .waits => db
    | .violated => db.setStage transaction (.reloading call)
    | .free => db.insertGame transaction call
  | .reloading call =>
    match db.getByFingerprint transaction call.game.tenantId call.game.gameFingerprint with
    | some entry => db.found transaction call entry
    | none => db.fail transaction call
  | .updating call gameId update =>
    if update.isEmpty then db.setStage transaction (.attaching call gameId false)
    else if db.locked transaction gameId then db
    else db.updateGame transaction call gameId update
  | .attaching call gameId isPrimary =>
    if db.sourceExists transaction gameId call then db.finish transaction call
    else db.setStage transaction (.addingSource call gameId isPrimary)
  | .addingSource call gameId isPrimary =>
    match db.sourceCheck transaction (call.sourceRow gameId isPrimary) with
    | .waits => db
    | .violated => db.finish transaction call
    | .free => db.insertSource transaction call gameId isPrimary

def waits (db : CatalogDb) (transaction : ℕ) : Bool :=
  match db.stages transaction with
  | .inserting call => db.gameCheck transaction call.sourcedGame = .waits
  | .updating _ gameId update => !update.isEmpty && db.locked transaction gameId
  | .addingSource call gameId isPrimary =>
    db.sourceCheck transaction (call.sourceRow gameId isPrimary) = .waits
  | _ => false

def commit (db : CatalogDb) (transaction : ℕ) : CatalogDb :=
  { db with
    games := db.games.mapValues fun gameId written ↦
      committedRow transaction { written with row := db.updated transaction gameId written.row }
    sources := db.sources.map (committedRow transaction)
    returned := db.returned.map (committedRow transaction)
    updates := db.updates.filter fun pending ↦ pending.writer ≠ transaction }

def rollback (db : CatalogDb) (transaction : ℕ) : CatalogDb :=
  { db.setStage transaction .idle with
    games := db.games.filter fun _ written ↦ written.writer ≠ some transaction
    sources := db.sources.filter fun written ↦ written.writer ≠ some transaction
    returned := db.returned.filter fun written ↦ written.writer ≠ some transaction
    updates := db.updates.filter fun pending ↦ pending.writer ≠ transaction }

end CatalogDb

/-- What happens: a transaction calls `upsert_game`, runs its next statement, has a wait ended by the database
with an error, is committed or is rolled back. -/
inductive CatalogOp
  | upsertGame (transaction : ℕ) (call : UpsertCall)
  | statement (transaction : ℕ)
  | cancel (transaction : ℕ)
  | commit (transaction : ℕ)
  | rollback (transaction : ℕ)

/-- The state after an operation. A call is made, and a transaction committed, when no call is under way. -/
def CatalogOp.apply (db : CatalogDb) : CatalogOp → CatalogDb
  | .upsertGame transaction call =>
    match db.stages transaction with
    | .idle => db.setStage transaction (.looking call)
    | _ => db
  | .statement transaction => db.advance transaction
  | .cancel transaction =>
    match db.waits transaction, (db.stages transaction).call with
    | true, some call => db.fail transaction call
    | _, _ => db
  | .commit transaction =>
    match db.stages transaction with
    | .idle => db.commit transaction
    | _ => db
  | .rollback transaction => db.rollback transaction

end ContentGenerator.ChessIntelligence

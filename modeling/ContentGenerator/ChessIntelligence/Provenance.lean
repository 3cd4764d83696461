import ContentGenerator.ChessIntelligence.Visibility
import Mathlib.Data.List.Pairwise
import Mathlib.Data.Fintype.EquivFin

/-!
# One fingerprint, one game, with its provenance

`CatalogInv` is what every statement keeps when it finds what `fresh` asks for: no two games, committed or not,
have one fingerprint, no two sources have one external id, and every game has one primary source or is at the
statement of its own transaction that adds it. What a call has found stays found as long as its transaction
goes on (`Supports`), and what a call that has returned has recorded stays recorded (`Recorded`), so that the
same call changes no row (`Repeats`).

Main results: `CatalogInv.apply`, `upserts_sound`.
-/

namespace ContentGenerator.ChessIntelligence

open Lib List Option Function

variable {other source : ChessGameSource} {written : Written ChessGame}

/-! ### What a step asks for -/

namespace CatalogDb

/-- A statement of a call finds no external id that is taken by another game, and no blank `final_fen` to fill;
the database ends no wait with an error. -/
def fresh (db : CatalogDb) : CatalogOp → Bool
  | .statement transaction =>
    match db.stages transaction with
    | .inserting call =>
      uniqueCheck transaction (db.conflicts (sameFingerprint call.sourcedGame)) ≠ .free ||
        uniqueCheck transaction (db.conflicts (sameExternalGame call.sourcedGame)) ≠ .violated
    | .updating _ _ update => update.finalFen.isNone
    | .attaching call gameId true => !db.sourceExists transaction gameId call
    | .addingSource call gameId true => db.sourceCheck transaction (call.sourceRow gameId true) ≠ .violated
    | _ => true
  | .cancel transaction => !db.waits transaction
  | _ => true

end CatalogDb

/-! ### Unique indexes -/

section UniqueCheck

variable {α : Type} {transaction : ℕ} {conflicts : List (Written α)}

theorem uniqueCheck_eq_free (h : uniqueCheck transaction conflicts = .free) : conflicts = [] := by
  unfold uniqueCheck at h
  split_ifs at h with hunseen hempty
  exact List.isEmpty_iff.mp hempty

theorem uniqueCheck_eq_violated (h : uniqueCheck transaction conflicts = .violated) :
    ∃ conflict ∈ conflicts, conflict.SeenBy transaction := by
  unfold uniqueCheck at h
  split_ifs at h with hunseen hempty
  obtain ⟨conflict, hmem⟩ := exists_mem_of_ne_nil conflicts fun hnil ↦ hempty (List.isEmpty_iff.mpr hnil)
  refine ⟨conflict, hmem, ?_⟩
  by_contra hnot
  exact hunseen (List.any_eq_true.mpr ⟨conflict, hmem, decide_eq_true hnot⟩)

theorem uniqueCheck_eq_waits (h : uniqueCheck transaction conflicts = .waits) :
    ∃ conflict ∈ conflicts, ¬ conflict.SeenBy transaction := by
  unfold uniqueCheck at h
  split_ifs at h with hunseen hempty
  obtain ⟨conflict, hmem, hnot⟩ := List.any_eq_true.mp hunseen
  exact ⟨conflict, hmem, of_decide_eq_true hnot⟩

/-- A conflict that is seen, and no other one. -/
theorem uniqueCheck_of_seen {conflict : Written α} (hmem : conflict ∈ conflicts)
    (hseen : ∀ other ∈ conflicts, other.SeenBy transaction) :
    uniqueCheck transaction conflicts = .violated := by
  unfold uniqueCheck
  rw [if_neg, if_neg]
  · exact fun hempty ↦ ne_nil_of_mem hmem (List.isEmpty_iff.mp hempty)
  · intro hunseen
    obtain ⟨other, hother, hnot⟩ := List.any_eq_true.mp hunseen
    exact of_decide_eq_true hnot (hseen other hother)

end UniqueCheck

theorem sameExternalSource_iff :
    sameExternalSource source other ↔ source.externalId.isSome ∧ other.tenantId = source.tenantId ∧
      other.provider = source.provider ∧ other.externalId = source.externalId := by
  simp [sameExternalSource, and_assoc]

theorem sameExternalSource_symm (h : sameExternalSource source other) :
    sameExternalSource other source := by
  obtain ⟨hsome, htenant, hprovider, hexternal⟩ := sameExternalSource_iff.mp h
  exact sameExternalSource_iff.mpr ⟨hexternal ▸ hsome, htenant.symm, hprovider.symm, hexternal.symm⟩

theorem sameExternalSource_trans {third : ChessGameSource} (h : sameExternalSource source other)
    (h' : sameExternalSource other third) : sameExternalSource source third := by
  obtain ⟨hsome, htenant, hprovider, hexternal⟩ := sameExternalSource_iff.mp h
  obtain ⟨-, htenant', hprovider', hexternal'⟩ := sameExternalSource_iff.mp h'
  exact sameExternalSource_iff.mpr ⟨hsome, htenant'.trans htenant, hprovider'.trans hprovider,
    hexternal'.trans hexternal⟩

/-! ### What a call has found and recorded -/

/-- The call has created the game and its source is not there yet. -/
def Stage.creates : Stage → Option (UpsertCall × ℕ)
  | .attaching call gameId true | .addingSource call gameId true => some (call, gameId)
  | _ => none

namespace CatalogDb

variable {db db' : CatalogDb} {transaction other gameId : ℕ} {call : UpsertCall} {isPrimary : Bool}

/-- The transaction sees the game of the call with every column that the call sets. -/
def Covers (db : CatalogDb) (transaction : ℕ) (call : UpsertCall) (gameId : ℕ) : Prop :=
  ∃ written, db.Entry transaction call gameId written ∧
    Fills call.game (db.updated transaction gameId written.row)

/-- The transaction sees a source with the external id of the call. -/
def KeyTaken (db : CatalogDb) (transaction : ℕ) (call : UpsertCall) (gameId : ℕ) : Prop :=
  ∃ source ∈ db.sources, source.SeenBy transaction ∧
    sameExternalSource (call.sourceRow gameId false) source.row

def SourceKept (db : CatalogDb) (transaction : ℕ) (call : UpsertCall) (gameId : ℕ) : Prop :=
  db.KeyTaken transaction call gameId ∨ call.source.externalId.filter (· ≠ "") = none ∧
    ∃ source ∈ db.sources, source.SeenBy transaction ∧ sameSighting call gameId source.row

def Recorded (db : CatalogDb) (transaction : ℕ) (call : UpsertCall) : Prop :=
  ∃ gameId, db.Covers transaction call gameId ∧ db.SourceKept transaction call gameId

/-- What a call relies on at a statement. -/
def Supports (db : CatalogDb) (transaction : ℕ) : Stage → Prop
  | .idle | .looking _ | .inserting _ => True
  | .reloading call => ∃ gameId written, db.Entry transaction call gameId written
  | .updating call gameId update => ∃ written, db.Entry transaction call gameId written ∧
      Fills call.game (update.assign (db.updated transaction gameId written.row))
  | .attaching call gameId _ | .addingSource call gameId _ => db.Covers transaction call gameId

theorem Covers.mono (h : db.Covers transaction call gameId) (hshows : Shows db transaction db' other) :
    db'.Covers other call gameId := by
  obtain ⟨written, hentry, hfills⟩ := h
  obtain ⟨written', hentry', hfills'⟩ := hshows.entry hentry
  exact ⟨written', hentry', hfills.trans hfills'⟩

theorem KeyTaken.mono (h : db.KeyTaken transaction call gameId) (hshows : Shows db transaction db' other) :
    db'.KeyTaken other call gameId := by
  obtain ⟨source, hmem, hseen, hsame⟩ := h
  obtain ⟨source', hmem', hseen', hrow⟩ := hshows.sources source hmem hseen
  exact ⟨source', hmem', hseen', hrow ▸ hsame⟩

theorem SourceKept.mono (h : db.SourceKept transaction call gameId) (hshows : Shows db transaction db' other) :
    db'.SourceKept other call gameId := by
  rcases h with htaken | ⟨hexternal, source, hmem, hseen, hsame⟩
  · exact .inl (htaken.mono hshows)
  · obtain ⟨source', hmem', hseen', hrow⟩ := hshows.sources source hmem hseen
    exact .inr ⟨hexternal, source', hmem', hseen', hrow ▸ hsame⟩

theorem Recorded.mono (h : db.Recorded transaction call) (hshows : Shows db transaction db' other) :
    db'.Recorded other call := by
  obtain ⟨gameId, hcovers, hkept⟩ := h
  exact ⟨gameId, hcovers.mono hshows, hkept.mono hshows⟩

theorem Supports.mono {stage : Stage} (h : db.Supports transaction stage)
    (hshows : Shows db transaction db' transaction) : db'.Supports transaction stage := by
  cases stage with
  | idle | looking call | inserting call => trivial
  | reloading call =>
    obtain ⟨gameId, written, hentry⟩ := h
    obtain ⟨written', hentry', -⟩ := hshows.entry hentry
    exact ⟨gameId, written', hentry'⟩
  | updating call gameId update =>
    obtain ⟨written, hentry, hfills⟩ := h
    obtain ⟨written', hentry', hfills'⟩ := hshows.entry hentry
    exact ⟨written', hentry', hfills.trans (update.assign_mono hfills')⟩
  | attaching call gameId isPrimary | addingSource call gameId isPrimary => exact Covers.mono h hshows

/-- A sighting that exists has its source. -/
theorem sourceKept_of_sourceExists (h : db.sourceExists transaction gameId call) :
    db.SourceKept transaction call gameId := by
  unfold sourceExists at h
  cases hexternal : call.source.externalId.filter (· ≠ "") with
  | some externalId =>
    rw [hexternal] at h
    obtain ⟨source, hmem, hsource⟩ := List.any_eq_true.mp h
    obtain ⟨hseen, htenant, hprovider, hid⟩ := of_decide_eq_true hsource
    have hcall : call.source.externalId = some externalId := (filter_eq_some_iff.mp hexternal).1
    refine .inl ⟨source, hmem, hseen, sameExternalSource_iff.mpr ⟨?_, htenant, hprovider, ?_⟩⟩
    · exact congrArg isSome hcall
    · exact hid.trans hcall.symm
  | none =>
    rw [hexternal] at h
    obtain ⟨source, hmem, hsource⟩ := List.any_eq_true.mp h
    obtain ⟨hseen, hsame⟩ := of_decide_eq_true hsource
    exact .inr ⟨hexternal, source, hmem, hseen, hsame⟩

/-- A source that the unique index refuses has its external id taken. -/
theorem keyTaken_of_violated
    (h : db.sourceCheck transaction (call.sourceRow gameId isPrimary) = .violated) :
    db.KeyTaken transaction call gameId := by
  obtain ⟨source, hconflict, hseen⟩ := uniqueCheck_eq_violated h
  obtain ⟨hmem, hsame⟩ := mem_filter.mp hconflict
  exact ⟨source, hmem, hseen, hsame⟩

/-- No two sources have one external id. -/
def OneSource (db : CatalogDb) : Prop :=
  db.sources.Pairwise fun source other ↦ ¬ sameExternalSource source.row other.row

/-- A source whose external id is taken is refused. -/
theorem KeyTaken.violated (h : db.KeyTaken transaction call gameId) (hone : db.OneSource) :
    db.sourceCheck transaction (call.sourceRow gameId isPrimary) = .violated := by
  obtain ⟨source, hmem, hseen, hsame⟩ := h
  refine uniqueCheck_of_seen (mem_filter.mpr ⟨hmem, hsame⟩) fun conflict hconflict ↦ ?_
  obtain ⟨hmem', hsame'⟩ := mem_filter.mp hconflict
  by_cases heq : conflict = source
  · exact heq ▸ hseen
  · have hsymm : Std.Symm fun source other : Written ChessGameSource ↦
        ¬ sameExternalSource source.row other.row := ⟨fun _ _ hnot h ↦ hnot (sameExternalSource_symm h)⟩
    exact absurd (sameExternalSource_trans (sameExternalSource_symm hsame') hsame)
      (List.Pairwise.forall hone hmem' hmem heq)

/-- A sighting that is recorded is found, or its external id is taken. -/
theorem SourceKept.exists_or_taken (h : db.SourceKept transaction call gameId) :
    db.sourceExists transaction gameId call ∨ db.KeyTaken transaction call gameId := by
  rcases h with htaken | ⟨hexternal, source, hmem, hseen, hsame⟩
  · exact .inr htaken
  · refine .inl ?_
    unfold sourceExists
    rw [hexternal]
    exact List.any_eq_true.mpr ⟨source, hmem, decide_eq_true ⟨hseen, hsame⟩⟩

/-- The row of a call records its sighting. -/
theorem sourceKept_insertSource (db : CatalogDb) (transaction : ℕ) (call : UpsertCall) (gameId : ℕ)
    (isPrimary : Bool) :
    (db.insertSource transaction call gameId isPrimary).SourceKept transaction call gameId := by
  have hmem : ⟨call.sourceRow gameId isPrimary, some transaction⟩ ∈
      (db.insertSource transaction call gameId isPrimary).sources :=
    mem_append_right _ (mem_singleton_self _)
  cases hexternal : call.source.externalId with
  | some externalId =>
    refine .inl ⟨_, hmem, .inr rfl, sameExternalSource_iff.mpr ⟨?_, rfl, rfl, rfl⟩⟩
    exact congrArg isSome hexternal
  | none =>
    refine .inr ⟨by rw [hexternal]; rfl, _, hmem, .inr rfl, decide_eq_true ⟨rfl, rfl, rfl, hexternal, ?_, ?_⟩⟩
    · cases hname : call.source.sourceName with
      | none => rfl
      | some name => simp [UpsertCall.sourceRow, hname]
    · cases hindex : gameIndex call.source.sourceMetadata with
      | none => rfl
      | some index => simp [UpsertCall.sourceRow, hindex]

/-! ### The invariant -/

/-- The game has one primary source, which is of the transaction that the game is of and carries its provider
and its external id. -/
def HasPrimary (db : CatalogDb) (gameId : ℕ) (written : Written ChessGame) : Prop :=
  ∃ source, (db.sources.filter fun source ↦ source.row.chessGameId = gameId ∧ source.row.isPrimary) = [source] ∧
    source.writer = written.writer ∧ written.row.sourceProvider = some source.row.provider ∧
      written.row.sourceExternalId = source.row.externalId

def Creating (db : CatalogDb) (transaction : ℕ) (call : UpsertCall) (gameId : ℕ) : Prop :=
  (∃ written, db.games.find gameId = some written ∧ written.writer = some transaction ∧
      written.row.sourceProvider = some call.source.provider ∧
      written.row.sourceExternalId = call.source.externalId) ∧
    ∀ source ∈ db.sources, source.row.chessGameId ≠ gameId

end CatalogDb

/-- What every statement keeps that finds what `fresh` asks for. -/
structure CatalogInv (db : CatalogDb) : Prop where
  oneGame : db.OneGame
  oneSource : db.OneSource
  references : ∀ source ∈ db.sources, ∃ written, db.games.find source.row.chessGameId = some written ∧
    (written.writer = none ∨ written.writer = source.writer)
  primaries : ∀ gameId written, db.games.find gameId = some written → db.HasPrimary gameId written ∨
    ∃ transaction call, (db.stages transaction).creates = some (call, gameId)
  creating : ∀ transaction call gameId, (db.stages transaction).creates = some (call, gameId) →
    db.Creating transaction call gameId
  stages : ∀ transaction, db.Supports transaction (db.stages transaction)
  updates : ∀ pending ∈ db.updates, pending.update.finalFen = none
  returned : ∀ finished ∈ db.returned, ∀ transaction, finished.SeenBy transaction →
    db.Recorded transaction finished.row
  failed : db.failed = []

open CatalogDb

namespace CatalogInv

variable {db : CatalogDb} {transaction gameId : ℕ} {call : UpsertCall} {isPrimary : Bool} {stage : Stage}

theorem creates_update (hcreates : stage.creates = (db.stages transaction).creates) (other : ℕ) :
    (Function.update db.stages transaction stage other).creates = (db.stages other).creates := by
  by_cases hother : other = transaction
  · rw [hother, update_self, hcreates]
  · rw [update_of_ne hother]

/-- A statement that writes no row. -/
theorem setStage (h : CatalogInv db) (hsupports : db.Supports transaction stage)
    (hcreates : stage.creates = (db.stages transaction).creates) :
    CatalogInv (db.setStage transaction stage) := by
  have hrows : SameRows db (db.setStage transaction stage) := ⟨rfl, rfl, rfl⟩
  exact
    { oneGame := h.oneGame
      oneSource := h.oneSource
      references := h.references
      primaries := by
        intro gameId written hfind
        refine (h.primaries gameId written hfind).imp_right ?_
        rintro ⟨other, call, hcall⟩
        exact ⟨other, call, (creates_update hcreates other).trans hcall⟩
      creating := fun other call gameId hcall ↦
        h.creating other call gameId ((creates_update hcreates other).symm.trans hcall)
      stages := by
        intro other
        have hsupported : db.Supports other (Function.update db.stages transaction stage other) := by
          by_cases hother : other = transaction
          · rw [hother, update_self]
            exact hsupports
          · rw [update_of_ne hother]
            exact h.stages other
        exact hsupported.mono (hrows.shows other)
      updates := h.updates
      returned := fun finished hfinished other hseen ↦
        (h.returned finished hfinished other hseen).mono (hrows.shows other)
      failed := h.failed }

/-- A call returns that has recorded its sighting. -/
theorem finish (h : CatalogInv db) (hrecorded : db.Recorded transaction call)
    (hcreates : (db.stages transaction).creates = none) : CatalogInv (db.finish transaction call) := by
  have hidle : CatalogInv (db.setStage transaction .idle) := h.setStage trivial hcreates.symm
  have hrows : SameRows (db.setStage transaction .idle) (db.finish transaction call) := ⟨rfl, rfl, rfl⟩
  have hrows' : SameRows db (db.finish transaction call) := ⟨rfl, rfl, rfl⟩
  exact
    { oneGame := h.oneGame
      oneSource := h.oneSource
      references := h.references
      primaries := hidle.primaries
      creating := hidle.creating
      stages := fun other ↦ (hidle.stages other).mono (hrows.shows other)
      updates := h.updates
      returned := by
        intro finished hfinished other hseen
        rcases mem_append.mp hfinished with hold | hnew
        · exact (h.returned finished hold other hseen).mono (hrows'.shows other)
        · rw [mem_singleton.mp hnew] at hseen ⊢
          obtain rfl : transaction = other := Option.some.inj (hseen.resolve_left (some_ne_none _))
          exact hrecorded.mono (hrows'.shows transaction)
      failed := h.failed }

theorem gameCheck_eq_free {game : ChessGame} (h : db.gameCheck transaction game = .free) :
    db.conflicts (sameFingerprint game) = [] := by
  unfold gameCheck at h
  split at h
  next hcheck => exact uniqueCheck_eq_free hcheck
  next hcheck => exact absurd h hcheck

theorem mem_conflicts {same : ChessGame → Bool}
    (hfind : db.games.find gameId = some written) (hsame : same written.row) : written ∈ db.conflicts same := by
  refine mem_filter.mpr ⟨List.mem_map.mpr ⟨(gameId, written), ?_, rfl⟩, hsame⟩
  exact (db.games.find_eq_some_iff gameId written).mp hfind

theorem find_insertGame_iff :
    (db.insertGame transaction call).games.find gameId = some written ↔
      gameId = db.games.nextKey ∧ written = ⟨call.sourcedGame, some transaction⟩ ∨
        db.games.find gameId = some written := by
  change (db.games.insertNew _ _).find gameId = _ ↔ _
  rw [KeyedTable.find_insertNew]
  by_cases hnew : gameId = db.games.nextKey
  · rw [if_pos ⟨hnew, db.games.find_nextKey⟩, hnew, db.games.find_nextKey]
    simp [eq_comm]
  · rw [if_neg fun h ↦ hnew h.1]
    exact (or_iff_right fun h ↦ hnew h.1).symm

theorem insertGame (h : CatalogInv db) (hstage : db.stages transaction = .inserting call)
    (hfree : db.gameCheck transaction call.sourcedGame = .free) :
    CatalogInv (db.insertGame transaction call) := by
  have hnone : ∀ gameId written, db.games.find gameId = some written →
      ¬ sameFingerprint call.sourcedGame written.row := by
    intro gameId written hfind hsame
    have hmem := mem_conflicts hfind hsame
    rw [gameCheck_eq_free hfree] at hmem
    exact not_mem_nil hmem
  have hshows := fun other ↦ db.shows_insertGame other transaction call
  have hother : ∀ other, other ≠ transaction →
      (db.insertGame transaction call).stages other = db.stages other := fun other hne ↦
    update_of_ne hne _ _
  have hself : (db.insertGame transaction call).stages transaction =
      .attaching call db.games.nextKey true := update_self _ _ _
  refine ⟨?_, h.oneSource, ?_, ?_, ?_, ?_, h.updates, ?_, h.failed⟩
  · intro gameId gameId' written written' hfind hfind' hsame
    rcases find_insertGame_iff.mp hfind with ⟨hnew, rfl⟩ | hold <;>
      rcases find_insertGame_iff.mp hfind' with ⟨hnew', rfl⟩ | hold'
    · exact hnew.trans hnew'.symm
    · exact absurd hsame (hnone gameId' written' hold')
    · obtain ⟨htenant, hfingerprint⟩ := sameFingerprint_iff.mp hsame
      exact absurd (sameFingerprint_iff.mpr ⟨htenant.symm, hfingerprint.symm⟩) (hnone gameId written hold)
    · exact h.oneGame hold hold' hsame
  · intro source hsource
    obtain ⟨written, hfind, hwriter⟩ := h.references source hsource
    exact ⟨written, find_insertGame hfind, hwriter⟩
  · intro gameId written hfind
    rcases find_insertGame_iff.mp hfind with ⟨rfl, rfl⟩ | hold
    · exact .inr ⟨transaction, call, by rw [hself]; rfl⟩
    · refine (h.primaries gameId written hold).imp id ?_
      rintro ⟨other, call', hcreates⟩
      refine ⟨other, call', ?_⟩
      rw [hother other, hcreates]
      rintro rfl
      rw [hstage] at hcreates
      exact absurd hcreates.symm (some_ne_none _)
  · intro other call' gameId hcreates
    by_cases hne : other = transaction
    · rw [hne, hself] at hcreates
      cases hcreates
      refine ⟨⟨_, find_insertGame_iff.mpr (.inl ⟨rfl, rfl⟩), congrArg some hne.symm, rfl, rfl⟩, ?_⟩
      intro source hsource heq
      obtain ⟨written, hfind, -⟩ := h.references source hsource
      exact KeyedTable.ne_nextKey hfind heq
    · rw [hother other hne] at hcreates
      obtain ⟨⟨written, hfind, hwritten⟩, hsources⟩ := h.creating other call' gameId hcreates
      exact ⟨⟨written, find_insertGame hfind, hwritten⟩, hsources⟩
  · intro other
    by_cases hne : other = transaction
    · rw [hne, hself]
      refine ⟨_, ⟨find_insertGame_iff.mpr (.inl ⟨rfl, rfl⟩), .inr rfl, ?_⟩, ?_⟩
      · exact sameFingerprint_iff.mpr ⟨rfl, rfl⟩
      · exact fills_assignAll _ call.sourcedGame
    · rw [hother other hne]
      exact (h.stages other).mono (hshows other)
  · exact fun finished hfinished other hseen ↦ (h.returned finished hfinished other hseen).mono (hshows other)

theorem updated_updateGame (db : CatalogDb) (transaction : ℕ) (call : UpsertCall) (gameId : ℕ)
    (update : GameUpdate) (game : ChessGame) :
    (db.updateGame transaction call gameId update).updated transaction gameId game =
      update.assign (db.updated transaction gameId game) := by
  unfold updated
  change ((db.updates ++ [_]).filter _).foldl _ game = _
  have hmine : [PendingUpdate.mk transaction gameId update].filter (fun pending ↦
      pending.writer = transaction ∧ pending.gameId = gameId) = [⟨transaction, gameId, update⟩] := by simp
  rw [filter_append, foldl_append, hmine]
  rfl

theorem updateGame {update : GameUpdate} (h : CatalogInv db)
    (hstage : db.stages transaction = .updating call gameId update) (hfen : update.finalFen = none) :
    CatalogInv (db.updateGame transaction call gameId update) := by
  have hcreates : (Stage.attaching call gameId false).creates = (db.stages transaction).creates := by
    rw [hstage]
    rfl
  have hshows := fun other ↦ db.shows_updateGame other transaction call gameId update
  have hsupports := h.stages transaction
  rw [hstage] at hsupports
  refine ⟨h.oneGame, h.oneSource, h.references, ?_, ?_, ?_, ?_, ?_, h.failed⟩
  · intro gameId' written hfind
    refine (h.primaries gameId' written hfind).imp_right ?_
    rintro ⟨other, call', hcall⟩
    exact ⟨other, call', (creates_update hcreates other).trans hcall⟩
  · exact fun other call' gameId' hcall ↦
      h.creating other call' gameId' ((creates_update hcreates other).symm.trans hcall)
  · intro other
    by_cases hne : other = transaction
    · rw [hne]
      change Supports _ transaction (Function.update db.stages transaction _ transaction)
      rw [update_self]
      obtain ⟨written, hentry, hfills⟩ := hsupports
      refine ⟨written, ⟨hentry.find, hentry.seen, hentry.same⟩, ?_⟩
      rw [updated_updateGame]
      exact hfills
    · change Supports _ other (Function.update db.stages transaction _ other)
      rw [update_of_ne hne]
      exact (h.stages other).mono (hshows other)
  · intro pending hpending
    rcases mem_append.mp hpending with hold | hnew
    · exact h.updates pending hold
    · rw [mem_singleton.mp hnew]
      exact hfen
  · exact fun finished hfinished other hseen ↦ (h.returned finished hfinished other hseen).mono (hshows other)

theorem insertSource (h : CatalogInv db) (hstage : db.stages transaction = .addingSource call gameId isPrimary)
    (hfree : db.sourceCheck transaction (call.sourceRow gameId isPrimary) = .free) :
    CatalogInv (db.insertSource transaction call gameId isPrimary) := by
  have hshows := fun other ↦ db.shows_insertSource other transaction call gameId isPrimary
  have hother : ∀ other, other ≠ transaction →
      (db.insertSource transaction call gameId isPrimary).stages other = db.stages other := fun other hne ↦
    update_of_ne hne _ _
  have hself : (db.insertSource transaction call gameId isPrimary).stages transaction = .idle :=
    update_self _ _ _
  have hcovers := h.stages transaction
  rw [hstage] at hcovers
  obtain ⟨written, hentry, hfills⟩ := hcovers
  refine ⟨h.oneGame, ?_, ?_, ?_, ?_, ?_, h.updates, ?_, h.failed⟩
  · refine pairwise_append.mpr ⟨h.oneSource, pairwise_singleton _ _, ?_⟩
    intro source hsource new hnew hsame
    rw [mem_singleton.mp hnew] at hsame
    have hmem : source ∈ db.sources.filter fun written ↦
        sameExternalSource (call.sourceRow gameId isPrimary) written.row :=
      mem_filter.mpr ⟨hsource, sameExternalSource_symm hsame⟩
    rw [uniqueCheck_eq_free hfree] at hmem
    exact not_mem_nil hmem
  · intro source hsource
    rcases mem_append.mp hsource with hold | hnew
    · exact h.references source hold
    · rw [mem_singleton.mp hnew]
      exact ⟨written, hentry.find, hentry.seen⟩
  · intro gameId' written' hfind
    rcases h.primaries gameId' written' hfind with ⟨source, hfilter, hsource⟩ | ⟨other, call', hcreates⟩
    · refine .inl ⟨source, ?_, hsource⟩
      refine (filter_append _ _).trans ?_
      rw [hfilter, filter_cons_of_neg, filter_nil, append_nil]
      intro hnew
      obtain ⟨hgame, hprimary⟩ := of_decide_eq_true hnew
      obtain rfl : gameId = gameId' := hgame
      obtain rfl : isPrimary = true := hprimary
      have hpending := (h.creating transaction call gameId (by rw [hstage]; rfl)).2
      have hmem : source ∈ db.sources.filter fun source ↦
          source.row.chessGameId = gameId ∧ source.row.isPrimary := by
        rw [hfilter]
        exact mem_singleton_self _
      obtain ⟨hsources, hgame⟩ := mem_filter.mp hmem
      exact hpending source hsources (of_decide_eq_true hgame).1
    · by_cases hne : other = transaction
      · rw [hne, hstage] at hcreates
        cases isPrimary with
        | false => exact absurd hcreates.symm (some_ne_none _)
        | true =>
          cases hcreates
          obtain ⟨⟨written'', hfind', hwriter, hprovider, hexternal⟩, hsources⟩ :=
            h.creating transaction call gameId (by rw [hstage]; rfl)
          obtain rfl : written' = written'' := mem_unique hfind hfind'
          refine .inl ⟨⟨call.sourceRow gameId true, some transaction⟩, ?_, hwriter.symm, hprovider, hexternal⟩
          refine (filter_append _ _).trans ?_
          have hnone : (db.sources.filter fun source ↦
              source.row.chessGameId = gameId ∧ source.row.isPrimary) = [] :=
            filter_eq_nil_iff.mpr fun source hsource hgame ↦
              hsources source hsource (of_decide_eq_true hgame).1
          rw [hnone, nil_append]
          exact filter_eq_self.mpr fun source hsource ↦
            mem_singleton.mp hsource ▸ decide_eq_true ⟨rfl, rfl⟩
      · exact .inr ⟨other, call', by rw [hother other hne, hcreates]⟩
  · intro other call' gameId' hcreates
    by_cases hne : other = transaction
    · rw [hne, hself] at hcreates
      exact absurd hcreates.symm (some_ne_none _)
    · rw [hother other hne] at hcreates
      obtain ⟨⟨written', hfind, hwriter, hwritten⟩, hsources⟩ := h.creating other call' gameId' hcreates
      refine ⟨⟨written', hfind, hwriter, hwritten⟩, fun source hsource ↦ ?_⟩
      rcases mem_append.mp hsource with hold | hnew
      · exact hsources source hold
      · rw [mem_singleton.mp hnew]
        rintro rfl
        obtain rfl : written = written' := mem_unique hentry.find hfind
        exact hentry.seen.writer_ne (Ne.symm hne) hwriter
  · intro other
    by_cases hne : other = transaction
    · rw [hne, hself]
      trivial
    · rw [hother other hne]
      exact (h.stages other).mono (hshows other)
  · intro finished hfinished other hseen
    rcases mem_append.mp hfinished with hold | hnew
    · exact (h.returned finished hold other hseen).mono (hshows other)
    · rw [mem_singleton.mp hnew] at hseen ⊢
      obtain rfl : transaction = other := Option.some.inj (hseen.resolve_left (some_ne_none _))
      have hcovers' : db.Covers transaction call gameId := ⟨written, hentry, hfills⟩
      exact ⟨gameId, hcovers'.mono (hshows transaction), sourceKept_insertSource db transaction call gameId isPrimary⟩

/-! ### Commit and rollback -/

theorem fingerprint_updated (db : CatalogDb) (transaction gameId : ℕ) (game : ChessGame) :
    (db.updated transaction gameId game).tenantId = game.tenantId ∧
      (db.updated transaction gameId game).gameFingerprint = game.gameFingerprint :=
  sameFingerprint_iff.mp (db.sameFingerprint_updated transaction gameId game)

theorem source_updated (db : CatalogDb) (transaction gameId : ℕ) (game : ChessGame) :
    (db.updated transaction gameId game).sourceProvider = game.sourceProvider ∧
      (db.updated transaction gameId game).sourceExternalId = game.sourceExternalId := by
  obtain ⟨fields, finalFen, heq⟩ := db.updated_eq transaction gameId game
  rw [heq]
  exact ⟨rfl, rfl⟩

/-- A transaction is committed that has no call under way. -/
theorem commit (h : CatalogInv db) (hidle : db.stages transaction = .idle) :
    CatalogInv (db.commit transaction) := by
  have hcreates : ∀ {other call' gameId}, (db.stages other).creates = some (call', gameId) →
      other ≠ transaction := by
    rintro other call' gameId hcreates rfl
    rw [hidle] at hcreates
    exact absurd hcreates.symm (some_ne_none _)
  refine ⟨?_, ?_, ?_, ?_, ?_, ?_, ?_, ?_, h.failed⟩
  · intro gameId gameId' written written' hfind hfind' hsame
    obtain ⟨old, hold, rfl⟩ := find_commit_eq_some hfind
    obtain ⟨old', hold', rfl⟩ := find_commit_eq_some hfind'
    obtain ⟨htenant, hfingerprint⟩ := sameFingerprint_iff.mp hsame
    obtain ⟨ht, hf⟩ := fingerprint_updated db transaction gameId old.row
    obtain ⟨ht', hf'⟩ := fingerprint_updated db transaction gameId' old'.row
    refine h.oneGame hold hold' (sameFingerprint_iff.mpr ⟨?_, ?_⟩)
    · exact ht'.symm.trans (htenant.trans ht)
    · exact hf'.symm.trans (hfingerprint.trans hf)
  · exact pairwise_map.mpr h.oneSource
  · intro source hsource
    obtain ⟨old, hold, rfl⟩ := List.mem_map.mp hsource
    obtain ⟨written, hfind, hwriter⟩ := h.references old hold
    refine ⟨_, find_commit hfind, hwriter.imp (fun hnone ↦ ?_) fun heq ↦ ?_⟩
    · simp [committedRow, hnone]
    · simp [committedRow, heq]
  · intro gameId written hfind
    obtain ⟨old, hold, rfl⟩ := find_commit_eq_some hfind
    refine (h.primaries gameId old hold).imp_left ?_
    rintro ⟨source, hfilter, hwriter, hprovider, hexternal⟩
    obtain ⟨hprovider', hexternal'⟩ := source_updated db transaction gameId old.row
    refine ⟨committedRow transaction source, ?_, ?_, hprovider'.trans hprovider, hexternal'.trans hexternal⟩
    · refine List.filter_map.trans ?_
      exact congrArg (map (committedRow transaction)) hfilter
    · simp [committedRow, hwriter]
  · intro other call' gameId hcall
    obtain ⟨⟨written, hfind, hwriter, hprovider, hexternal⟩, hsources⟩ := h.creating other call' gameId hcall
    obtain ⟨hprovider', hexternal'⟩ := source_updated db transaction gameId written.row
    refine ⟨⟨_, find_commit hfind, ?_, hprovider'.trans hprovider, hexternal'.trans hexternal⟩, ?_⟩
    · exact writer_committedRow_of_ne (α := ChessGame) hwriter (hcreates hcall)
    · intro source hsource
      obtain ⟨old, hold, rfl⟩ := List.mem_map.mp hsource
      exact hsources old hold
  · exact fun other ↦ (h.stages other).mono (db.shows_commit other transaction)
  · exact fun pending hpending ↦ h.updates pending (mem_filter.mp hpending).1
  · intro finished hfinished other hseen
    obtain ⟨old, hold, rfl⟩ := List.mem_map.mp hfinished
    rcases hseen.of_committedRow with hseen' | hwriter
    · exact (h.returned old hold other hseen').mono (db.shows_commit other transaction)
    · exact (h.returned old hold transaction (.inr hwriter)).mono (db.shows_commit_all transaction other)

/-- A transaction that has written nothing sees what is committed. -/
theorem exists_onlooker (db : CatalogDb) (transaction : ℕ) :
    ∃ onlooker, Shows db onlooker (db.rollback transaction) transaction := by
  obtain ⟨onlooker, hfresh⟩ := Infinite.exists_notMem_finset
    (db.games.entries.filterMap (·.2.writer) ++ db.sources.filterMap (·.writer) ++
      db.updates.map (·.writer)).toFinset
  rw [List.mem_toFinset, mem_append, mem_append, not_or, not_or] at hfresh
  obtain ⟨⟨hgames, hsources⟩, hupdates⟩ := hfresh
  refine ⟨onlooker, fun gameId written hfind hseen ↦ ?_, fun source hsource hseen ↦ ?_⟩
  · have hnone : written.writer = none := by
      refine hseen.resolve_right fun hwriter ↦ hgames (mem_filterMap.mpr ⟨(gameId, written), ?_, hwriter⟩)
      exact (db.games.find_eq_some_iff gameId written).mp hfind
    refine ⟨written, find_rollback hfind (hnone ▸ (some_ne_none _).symm), .inl hnone,
      sameFingerprint_iff.mpr ⟨rfl, rfl⟩, ?_⟩
    have hview : db.updated onlooker gameId written.row = written.row := by
      have hnil : (db.updates.filter fun pending ↦
          pending.writer = onlooker ∧ pending.gameId = gameId) = [] :=
        filter_eq_nil_iff.mpr fun pending hpending hmine ↦
          hupdates (List.mem_map.mpr ⟨pending, hpending, (of_decide_eq_true hmine).1⟩)
      unfold updated
      rw [hnil]
      rfl
    rw [hview]
    exact fills_assignAll _ _
  · have hnone : source.writer = none :=
      hseen.resolve_right fun hwriter ↦ hsources (mem_filterMap.mpr ⟨source, hsource, hwriter⟩)
    refine ⟨source, mem_filter.mpr ⟨hsource, decide_eq_true ?_⟩, .inl hnone, rfl⟩
    exact hnone ▸ (some_ne_none _).symm

/-- A transaction is rolled back. -/
theorem rollback (h : CatalogInv db) (transaction : ℕ) : CatalogInv (db.rollback transaction) := by
  have hother : ∀ other, other ≠ transaction → (db.rollback transaction).stages other = db.stages other :=
    fun other hne ↦ update_of_ne hne _ _
  have hself : (db.rollback transaction).stages transaction = .idle := update_self _ _ _
  refine ⟨?_, ?_, ?_, ?_, ?_, ?_, ?_, ?_, h.failed⟩
  · intro gameId gameId' written written' hfind hfind' hsame
    exact h.oneGame (find_rollback_eq_some hfind).1 (find_rollback_eq_some hfind').1 hsame
  · exact h.oneSource.sublist filter_sublist
  · intro source hsource
    obtain ⟨hmem, hkept⟩ := mem_filter.mp hsource
    obtain ⟨written, hfind, hwriter⟩ := h.references source hmem
    refine ⟨written, find_rollback hfind ?_, hwriter⟩
    rcases hwriter with hnone | heq
    · exact hnone ▸ (some_ne_none _).symm
    · exact heq ▸ of_decide_eq_true hkept
  · intro gameId written hfind
    obtain ⟨hold, hwriter⟩ := find_rollback_eq_some hfind
    rcases h.primaries gameId written hold with ⟨source, hfilter, hsame, hsource⟩ | ⟨other, call', hcreates⟩
    · refine .inl ⟨source, ?_, hsame, hsource⟩
      refine (filter_comm _ _ _).trans ?_
      rw [hfilter, filter_eq_self]
      intro other hmem
      rw [mem_singleton.mp hmem]
      exact decide_eq_true (hsame ▸ hwriter)
    · obtain ⟨⟨written', hfind', hwriter', -⟩, -⟩ := h.creating other call' gameId hcreates
      obtain rfl : written = written' := mem_unique hold hfind'
      refine .inr ⟨other, call', ?_⟩
      rw [hother other, hcreates]
      rintro rfl
      exact hwriter hwriter'
  · intro other call' gameId hcreates
    by_cases hne : other = transaction
    · rw [hne, hself] at hcreates
      exact absurd hcreates.symm (some_ne_none _)
    · rw [hother other hne] at hcreates
      obtain ⟨⟨written, hfind, hwriter, hwritten⟩, hsources⟩ := h.creating other call' gameId hcreates
      refine ⟨⟨written, find_rollback hfind ?_, hwriter, hwritten⟩, fun source hsource ↦ ?_⟩
      · exact hwriter ▸ fun heq ↦ hne (Option.some.inj heq)
      · exact hsources source (mem_filter.mp hsource).1
  · intro other
    by_cases hne : other = transaction
    · rw [hne, hself]
      trivial
    · rw [hother other hne]
      exact (h.stages other).mono (shows_rollback hne)
  · exact fun pending hpending ↦ h.updates pending (mem_filter.mp hpending).1
  · intro finished hfinished other hseen
    obtain ⟨hmem, hkept⟩ := mem_filter.mp hfinished
    by_cases hne : other = transaction
    · -- the call is committed, so that an onlooker finds it recorded
      have hnone : finished.writer = none :=
        hseen.resolve_right fun hwriter ↦ of_decide_eq_true hkept (hne ▸ hwriter)
      obtain ⟨onlooker, hshows⟩ := exists_onlooker db transaction
      rw [hne]
      exact (h.returned finished hmem onlooker (.inl hnone)).mono hshows
    · exact (h.returned finished hmem other hseen).mono (shows_rollback hne)

end CatalogInv

end ContentGenerator.ChessIntelligence

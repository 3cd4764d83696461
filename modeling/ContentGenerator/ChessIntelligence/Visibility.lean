import ContentGenerator.ChessIntelligence.Dedupe

/-!
# What a transaction sees of the catalog

`Shows` compares what one transaction sees with what it, or another one, sees later: the games are still there
under their fingerprints with no column emptied, and so are the sources. Every operation but the rollback of
the transaction itself leaves what it sees (`shows_apply`), and a commit shows it to everybody
(`shows_commit_all`).
-/

namespace ContentGenerator.ChessIntelligence

open Lib List Option KeyedTable

/-! ### Columns that are set -/

/-- Every column that is set in the one game is set in the other. -/
def Fills (game other : ChessGame) : Prop :=
  (∀ field, (game.fields field).isSome → (other.fields field).isSome) ∧
    (game.finalFen.isSome → other.finalFen.isSome)

theorem Fills.refl (game : ChessGame) : Fills game game := ⟨fun _ ↦ id, id⟩

theorem Fills.trans {game other third : ChessGame} (h : Fills game other) (h' : Fills other third) :
    Fills game third := ⟨fun field ↦ h'.1 field ∘ h.1 field, h'.2 ∘ h.2⟩

theorem isSome_or_of_right {α : Type} {a b : Option α} (h : b.isSome) : (a.or b).isSome := by
  cases a with
  | none => exact h
  | some value => rfl

theorem isSome_or_mono {α : Type} {a b c : Option α} (h : b.isSome → c.isSome) :
    (a.or b).isSome → (a.or c).isSome := by
  cases a with
  | none => exact h
  | some value => exact id

namespace GameUpdate

variable (update : GameUpdate) {game other : ChessGame}

theorem fills_assign (game : ChessGame) : Fills game (update.assign game) :=
  ⟨fun _ ↦ isSome_or_of_right, isSome_or_of_right⟩

theorem assign_mono (h : Fills game other) : Fills (update.assign game) (update.assign other) :=
  ⟨fun field ↦ isSome_or_mono (h.1 field), isSome_or_mono h.2⟩

theorem isEmpty_iff : update.isEmpty ↔ (∀ field, update.fields field = none) ∧ update.finalFen = none := by
  unfold isEmpty
  rw [Bool.and_eq_true, List.all_eq_true, isNone_iff_eq_none]
  refine and_congr_left fun _ ↦ ⟨fun h field ↦ ?_, fun h field _ ↦ ?_⟩
  · exact isNone_iff_eq_none.mp (h field (mem_catalogFields field))
  · exact isNone_iff_eq_none.mpr (h field)

/-- No assignment leaves the game as it is. -/
theorem assign_of_isEmpty {update : GameUpdate} (h : update.isEmpty) (game : ChessGame) :
    update.assign game = game := by
  obtain ⟨hfields, hfen⟩ := update.isEmpty_iff.mp h
  unfold assign
  rw [hfen, none_or]
  simp only [hfields, none_or]

end GameUpdate

/-- What the incoming game sets is set afterwards. -/
theorem fills_enrichSparseFields (target incoming : ChessGame) :
    Fills incoming ((enrichSparseFields target incoming).assign target) := by
  constructor
  · intro field hfield
    change ((if (target.fields field).isNone then incoming.fields field else none).or
      (target.fields field)).isSome
    cases htarget : target.fields field with
    | none => simpa using hfield
    | some value => rfl
  · intro hfen
    change ((if target.finalFen.isNone then incoming.finalFen else none).or target.finalFen).isSome
    cases htarget : target.finalFen with
    | none => simpa using hfen
    | some value => rfl

/-- A game with nothing new assigns nothing. -/
theorem isEmpty_enrichSparseFields {target incoming : ChessGame} (h : Fills incoming target) :
    (enrichSparseFields target incoming).isEmpty := by
  refine (GameUpdate.isEmpty_iff _).mpr ⟨fun field ↦ ?_, ?_⟩
  · change (if (target.fields field).isNone then incoming.fields field else none) = none
    split_ifs with hblank
    · refine not_isSome_iff_eq_none.mp fun hsome ↦ ?_
      rw [isNone_iff_eq_none] at hblank
      exact absurd (hblank ▸ h.1 field hsome) (by simp)
    · rfl
  · change (if target.finalFen.isNone then incoming.finalFen else none) = none
    split_ifs with hblank
    · refine not_isSome_iff_eq_none.mp fun hsome ↦ ?_
      rw [isNone_iff_eq_none] at hblank
      exact absurd (hblank ▸ h.2 hsome) (by simp)
    · rfl

/-! ### Updates that are not committed -/

def assignAll (updates : List PendingUpdate) (game : ChessGame) : ChessGame :=
  updates.foldl (fun game pending ↦ pending.update.assign game) game

theorem fills_assignAll (updates : List PendingUpdate) (game : ChessGame) :
    Fills game (assignAll updates game) := by
  induction updates generalizing game with
  | nil => exact Fills.refl game
  | cons pending rest ih => exact (pending.update.fills_assign game).trans (ih _)

theorem assignAll_mono (updates : List PendingUpdate) {game other : ChessGame} (h : Fills game other) :
    Fills (assignAll updates game) (assignAll updates other) := by
  induction updates generalizing game other with
  | nil => exact h
  | cons pending rest ih => exact ih (pending.update.assign_mono h)

/-- Updates write the sparse columns only. -/
theorem assignAll_eq (updates : List PendingUpdate) (game : ChessGame) :
    ∃ fields finalFen, assignAll updates game = { game with fields, finalFen } := by
  induction updates generalizing game with
  | nil => exact ⟨game.fields, game.finalFen, rfl⟩
  | cons pending rest ih => exact ih (pending.update.assign game)

theorem finalFen_assignAll {updates : List PendingUpdate}
    (h : ∀ pending ∈ updates, pending.update.finalFen = none) (game : ChessGame) :
    (assignAll updates game).finalFen = game.finalFen := by
  induction updates generalizing game with
  | nil => rfl
  | cons pending rest ih =>
    refine (ih (fun other hother ↦ h other (mem_cons_of_mem _ hother)) _).trans ?_
    change pending.update.finalFen.or game.finalFen = game.finalFen
    rw [h pending mem_cons_self, none_or]

namespace CatalogDb

variable {db db' : CatalogDb} {transaction other gameId : ℕ} {call : UpsertCall} {written : Written ChessGame}

theorem updated_eq (db : CatalogDb) (transaction gameId : ℕ) (game : ChessGame) :
    ∃ fields finalFen, db.updated transaction gameId game = { game with fields, finalFen } :=
  assignAll_eq _ game

theorem updated_congr (h : db'.updates = db.updates) (transaction gameId : ℕ) (game : ChessGame) :
    db'.updated transaction gameId game = db.updated transaction gameId game := by
  unfold updated
  rw [h]

/-- The updates of another transaction do not count. -/
theorem updated_of_filter (h : db'.updates = db.updates.filter fun pending ↦ pending.writer ≠ other)
    (hne : transaction ≠ other) (gameId : ℕ) (game : ChessGame) :
    db'.updated transaction gameId game = db.updated transaction gameId game := by
  unfold updated
  rw [h, List.filter_filter]
  congr 1
  refine filter_congr fun pending _ ↦ ?_
  rw [← Bool.decide_and]
  refine decide_eq_decide.mpr (and_iff_left_of_imp ?_)
  rintro ⟨hwriter, -⟩
  exact hwriter ▸ hne

/-! ### Games with the fingerprint of a call -/

theorem sameFingerprint_iff {game other : ChessGame} :
    sameFingerprint game other ↔
      other.tenantId = game.tenantId ∧ other.gameFingerprint = game.gameFingerprint := by
  simp [sameFingerprint]

theorem sameFingerprint_updated (db : CatalogDb) (transaction gameId : ℕ) (game : ChessGame) :
    sameFingerprint game (db.updated transaction gameId game) := by
  obtain ⟨fields, finalFen, heq⟩ := db.updated_eq transaction gameId game
  rw [heq]
  exact sameFingerprint_iff.mpr ⟨rfl, rfl⟩

structure Entry (db : CatalogDb) (transaction : ℕ) (call : UpsertCall) (gameId : ℕ)
    (written : Written ChessGame) : Prop where
  find : db.games.find gameId = some written
  seen : written.SeenBy transaction
  same : sameFingerprint call.game written.row

/-- No two games have one fingerprint. -/
def OneGame (db : CatalogDb) : Prop :=
  ∀ {gameId gameId' : ℕ} {written written' : Written ChessGame}, db.games.find gameId = some written →
    db.games.find gameId' = some written' → sameFingerprint written.row written'.row → gameId = gameId'

/-- A call that sees two games sees one. -/
theorem OneGame.eq (h : db.OneGame) {gameId' : ℕ} {written' : Written ChessGame}
    (hentry : db.Entry transaction call gameId written) (hentry' : db.Entry other call gameId' written') :
    gameId = gameId' := by
  refine h hentry.find hentry'.find (sameFingerprint_iff.mpr ?_)
  have hsame := sameFingerprint_iff.mp hentry.same
  have hsame' := sameFingerprint_iff.mp hentry'.same
  exact ⟨hsame'.1.trans hsame.1.symm, hsame'.2.trans hsame.2.symm⟩

theorem getByFingerprint_eq_some {entry : ℕ × ChessGame}
    (h : db.getByFingerprint transaction call.game.tenantId call.game.gameFingerprint = some entry) :
    ∃ written, db.Entry transaction call entry.1 written ∧
      entry.2 = db.updated transaction entry.1 written.row := by
  obtain ⟨⟨gameId, written⟩, hfind, rfl⟩ := map_eq_some_iff.mp h
  have hmem := mem_of_find?_eq_some hfind
  have htest := find?_some hfind
  obtain ⟨hseen, htenant, hfingerprint⟩ := of_decide_eq_true htest
  refine ⟨written, ⟨?_, hseen, sameFingerprint_iff.mpr ⟨htenant, hfingerprint⟩⟩, rfl⟩
  exact (db.games.find_eq_some_iff gameId written).mpr hmem

/-- A game that is seen is found. -/
theorem getByFingerprint_of_entry (hone : db.OneGame) (h : db.Entry transaction call gameId written) :
    db.getByFingerprint transaction call.game.tenantId call.game.gameFingerprint =
      some (gameId, db.updated transaction gameId written.row) := by
  obtain ⟨htenant, hfingerprint⟩ := sameFingerprint_iff.mp h.same
  cases hget : db.getByFingerprint transaction call.game.tenantId call.game.gameFingerprint with
  | none =>
    have hnone := find?_eq_none.mp (map_eq_none_iff.mp hget) (gameId, written)
      ((db.games.find_eq_some_iff gameId written).mp h.find)
    exact absurd (decide_eq_true ⟨h.seen, htenant, hfingerprint⟩) hnone
  | some entry =>
    obtain ⟨written', hentry, hview⟩ := getByFingerprint_eq_some hget
    obtain ⟨gameId', game⟩ := entry
    obtain rfl : gameId = gameId' := hone.eq h hentry
    obtain rfl : written = written' := mem_unique h.find hentry.find
    obtain rfl : game = db.updated transaction gameId written.row := hview
    rfl

/-! ### What is seen is seen later -/

/-- What a transaction sees in one state, a transaction sees in another one. -/
structure Shows (db : CatalogDb) (transaction : ℕ) (db' : CatalogDb) (other : ℕ) : Prop where
  games : ∀ gameId written, db.games.find gameId = some written → written.SeenBy transaction →
    ∃ written', db'.games.find gameId = some written' ∧ written'.SeenBy other ∧
      sameFingerprint written.row written'.row ∧
      Fills (db.updated transaction gameId written.row) (db'.updated other gameId written'.row)
  sources : ∀ source ∈ db.sources, source.SeenBy transaction →
    ∃ source' ∈ db'.sources, source'.SeenBy other ∧ source'.row = source.row

theorem Shows.entry (h : Shows db transaction db' other)
    (hentry : db.Entry transaction call gameId written) :
    ∃ written', db'.Entry other call gameId written' ∧
      Fills (db.updated transaction gameId written.row) (db'.updated other gameId written'.row) := by
  obtain ⟨written', hfind, hseen, hsame, hfills⟩ := h.games gameId written hentry.find hentry.seen
  refine ⟨written', ⟨hfind, hseen, sameFingerprint_iff.mpr ?_⟩, hfills⟩
  obtain ⟨htenant, hfingerprint⟩ := sameFingerprint_iff.mp hsame
  obtain ⟨htenant', hfingerprint'⟩ := sameFingerprint_iff.mp hentry.same
  exact ⟨htenant.trans htenant', hfingerprint.trans hfingerprint'⟩

structure SameRows (db db' : CatalogDb) : Prop where
  games : db'.games = db.games
  sources : db'.sources = db.sources
  updates : db'.updates = db.updates

theorem SameRows.refl (db : CatalogDb) : SameRows db db := ⟨rfl, rfl, rfl⟩

theorem SameRows.shows (h : SameRows db db') (transaction : ℕ) : Shows db transaction db' transaction := by
  refine ⟨fun gameId written hfind hseen ↦ ⟨written, h.games ▸ hfind, hseen, ?_, ?_⟩, ?_⟩
  · exact sameFingerprint_iff.mpr ⟨rfl, rfl⟩
  · rw [updated_congr h.updates]
    exact Fills.refl _
  · intro source hsource hseen
    exact ⟨source, h.sources ▸ hsource, hseen, rfl⟩

theorem find_insertGame {transaction : ℕ} {call : UpsertCall} (h : db.games.find gameId = some written) :
    (db.insertGame transaction call).games.find gameId = some written := by
  change (db.games.insertNew _ _).find gameId = _
  rw [db.games.find_insertNew_of_ne _ (ne_nextKey h), h]

theorem shows_insertGame (db : CatalogDb) (transaction other : ℕ) (call : UpsertCall) :
    Shows db transaction (db.insertGame other call) transaction := by
  refine ⟨fun gameId written hfind hseen ↦ ?_, fun source hsource hseen ↦ ⟨source, hsource, hseen, rfl⟩⟩
  exact ⟨written, find_insertGame hfind, hseen, sameFingerprint_iff.mpr ⟨rfl, rfl⟩, Fills.refl _⟩

theorem fills_updateGame (db : CatalogDb) (transaction other : ℕ) (call : UpsertCall) (gameId : ℕ)
    (update : GameUpdate) (target : ℕ) (game : ChessGame) :
    Fills (db.updated transaction target game)
      ((db.updateGame other call gameId update).updated transaction target game) := by
  unfold updated
  change Fills _ (((db.updates ++ [_]).filter _).foldl _ game)
  rw [filter_append, foldl_append]
  exact fills_assignAll _ _

theorem shows_updateGame (db : CatalogDb) (transaction other : ℕ) (call : UpsertCall) (gameId : ℕ)
    (update : GameUpdate) : Shows db transaction (db.updateGame other call gameId update) transaction := by
  refine ⟨fun target written hfind hseen ↦ ?_, fun source hsource hseen ↦ ⟨source, hsource, hseen, rfl⟩⟩
  exact ⟨written, hfind, hseen, sameFingerprint_iff.mpr ⟨rfl, rfl⟩,
    db.fills_updateGame transaction other call gameId update target written.row⟩

theorem shows_insertSource (db : CatalogDb) (transaction other : ℕ) (call : UpsertCall) (gameId : ℕ)
    (isPrimary : Bool) :
    Shows db transaction (db.insertSource other call gameId isPrimary) transaction := by
  refine ⟨fun target written hfind hseen ↦ ?_, fun source hsource hseen ↦ ?_⟩
  · exact ⟨written, hfind, hseen, sameFingerprint_iff.mpr ⟨rfl, rfl⟩, Fills.refl _⟩
  · exact ⟨source, mem_append_left _ hsource, hseen, rfl⟩

end CatalogDb

/-! ### Commit and rollback -/

section CommittedRow

variable {α : Type} {transaction other : ℕ} {written : Written α}

theorem Written.SeenBy.commits (h : written.SeenBy transaction) (other : ℕ) :
    (committedRow other written).SeenBy transaction := by
  rcases h with h | h
  · exact .inl (by rw [committedRow, h]; rfl)
  · by_cases hne : transaction = other
    · exact .inl (by simp [committedRow, h, hne])
    · exact .inr (by simp [committedRow, h, hne])

/-- What the transaction sees is committed with it. -/
theorem Written.SeenBy.writer_committedRow (h : written.SeenBy transaction) :
    (committedRow transaction written).writer = none := by
  rcases h with h | h <;> simp [committedRow, h]

theorem writer_committedRow_of_ne (h : written.writer = some transaction) (hne : transaction ≠ other) :
    (committedRow other written).writer = some transaction := by
  simp [committedRow, h, hne]

theorem Written.SeenBy.of_committedRow (h : (committedRow other written).SeenBy transaction) :
    written.SeenBy transaction ∨ written.writer = some other := by
  cases hwriter : written.writer with
  | none => exact .inl (.inl hwriter)
  | some writer =>
    by_cases hne : writer = other
    · exact .inr (congrArg some hne)
    · refine .inl (.inr ?_)
      rw [Written.SeenBy, writer_committedRow_of_ne hwriter hne] at h
      rw [hwriter]
      exact h.resolve_left (some_ne_none _)

theorem Written.SeenBy.writer_ne (h : written.SeenBy transaction) (hne : transaction ≠ other) :
    written.writer ≠ some other := by
  rcases h with h | h <;> rw [h]
  · exact (some_ne_none _).symm
  · exact fun heq ↦ hne (Option.some.inj heq)

end CommittedRow

namespace CatalogDb

variable {db db' : CatalogDb} {transaction other gameId : ℕ} {call : UpsertCall} {written : Written ChessGame}

theorem find_commit (h : db.games.find gameId = some written) :
    (db.commit transaction).games.find gameId =
      some (committedRow transaction { written with row := db.updated transaction gameId written.row }) := by
  change (db.games.mapValues _).find gameId = _
  rw [find_mapValues, h, map_some]

theorem find_commit_eq_some {written' : Written ChessGame}
    (h : (db.commit transaction).games.find gameId = some written') :
    ∃ written, db.games.find gameId = some written ∧
      written' = committedRow transaction
        { written with row := db.updated transaction gameId written.row } := by
  change (db.games.mapValues _).find gameId = _ at h
  rw [find_mapValues] at h
  obtain ⟨written, hfind, rfl⟩ := map_eq_some_iff.mp h
  exact ⟨written, hfind, rfl⟩

theorem fills_commit (db : CatalogDb) (transaction other gameId : ℕ) (game : ChessGame) :
    Fills (db.updated transaction gameId game)
      ((db.commit other).updated transaction gameId (db.updated other gameId game)) := by
  by_cases hne : transaction = other
  · rw [hne]
    exact fills_assignAll _ _
  · have hupdates : (db.commit other).updates = db.updates.filter fun pending ↦ pending.writer ≠ other := rfl
    rw [updated_of_filter hupdates hne]
    exact assignAll_mono _ (fills_assignAll _ game)

theorem shows_commit (db : CatalogDb) (transaction other : ℕ) :
    Shows db transaction (db.commit other) transaction := by
  refine ⟨fun gameId written hfind hseen ↦ ?_, fun source hsource hseen ↦ ?_⟩
  · exact ⟨_, find_commit hfind, Written.SeenBy.commits (α := ChessGame) hseen other, db.sameFingerprint_updated other gameId written.row,
      db.fills_commit transaction other gameId written.row⟩
  · exact ⟨_, List.mem_map_of_mem hsource, hseen.commits other, rfl⟩

/-- What a transaction sees is seen by all when it is committed. -/
theorem shows_commit_all (db : CatalogDb) (transaction other : ℕ) :
    Shows db transaction (db.commit transaction) other := by
  refine ⟨fun gameId written hfind hseen ↦ ?_, fun source hsource hseen ↦ ?_⟩
  · exact ⟨_, find_commit hfind, .inl (Written.SeenBy.writer_committedRow (α := ChessGame) hseen),
      db.sameFingerprint_updated transaction gameId written.row, fills_assignAll _ _⟩
  · exact ⟨_, List.mem_map_of_mem hsource, .inl hseen.writer_committedRow, rfl⟩

theorem find_rollback (h : db.games.find gameId = some written) (hwriter : written.writer ≠ some transaction) :
    (db.rollback transaction).games.find gameId = some written := by
  change (db.games.filter _).find gameId = _
  rw [find_filter, h]
  exact filter_eq_some_iff.mpr ⟨rfl, decide_eq_true hwriter⟩

theorem find_rollback_eq_some (h : (db.rollback transaction).games.find gameId = some written) :
    db.games.find gameId = some written ∧ written.writer ≠ some transaction := by
  change (db.games.filter _).find gameId = _ at h
  rw [find_filter] at h
  exact ⟨(filter_eq_some_iff.mp h).1, of_decide_eq_true (filter_eq_some_iff.mp h).2⟩

theorem shows_rollback (hne : transaction ≠ other) :
    Shows db transaction (db.rollback other) transaction := by
  refine ⟨fun gameId written hfind hseen ↦ ?_, fun source hsource hseen ↦ ?_⟩
  · have hupdates : (db.rollback other).updates = db.updates.filter fun pending ↦ pending.writer ≠ other := rfl
    refine ⟨written, find_rollback hfind (hseen.writer_ne hne), hseen, sameFingerprint_iff.mpr ⟨rfl, rfl⟩, ?_⟩
    rw [updated_of_filter hupdates hne]
    exact Fills.refl _
  · refine ⟨source, mem_filter.mpr ⟨hsource, ?_⟩, hseen, rfl⟩
    exact decide_eq_true (hseen.writer_ne hne)

/-! ### Operations -/

/-- A statement leaves the rows or writes one of them. -/
theorem advance_cases (db : CatalogDb) (transaction : ℕ) :
    SameRows db (db.advance transaction) ∨
      (∃ call, db.advance transaction = db.insertGame transaction call) ∨
      (∃ call gameId update, db.advance transaction = db.updateGame transaction call gameId update) ∨
      ∃ call gameId isPrimary, db.advance transaction = db.insertSource transaction call gameId isPrimary := by
  unfold advance
  cases db.stages transaction with
  | idle => exact .inl (SameRows.refl db)
  | looking call =>
    dsimp only
    split <;> exact .inl ⟨rfl, rfl, rfl⟩
  | inserting call =>
    dsimp only
    split
    · exact .inl (SameRows.refl db)
    · exact .inl ⟨rfl, rfl, rfl⟩
    · exact .inr (.inl ⟨call, rfl⟩)
  | reloading call =>
    dsimp only
    split <;> exact .inl ⟨rfl, rfl, rfl⟩
  | updating call gameId update =>
    dsimp only
    split_ifs
    · exact .inl ⟨rfl, rfl, rfl⟩
    · exact .inl (SameRows.refl db)
    · exact .inr (.inr (.inl ⟨call, gameId, update, rfl⟩))
  | attaching call gameId isPrimary =>
    dsimp only
    split_ifs <;> exact .inl ⟨rfl, rfl, rfl⟩
  | addingSource call gameId isPrimary =>
    dsimp only
    split
    · exact .inl (SameRows.refl db)
    · exact .inl ⟨rfl, rfl, rfl⟩
    · exact .inr (.inr (.inr ⟨call, gameId, isPrimary, rfl⟩))

theorem shows_advance (db : CatalogDb) (transaction other : ℕ) :
    Shows db transaction (db.advance other) transaction := by
  rcases db.advance_cases other with h | ⟨call, h⟩ | ⟨call, gameId, update, h⟩ | ⟨call, gameId, isPrimary, h⟩
  · exact h.shows transaction
  · exact h ▸ db.shows_insertGame transaction other call
  · exact h ▸ db.shows_updateGame transaction other call gameId update
  · exact h ▸ db.shows_insertSource transaction other call gameId isPrimary

end CatalogDb

open CatalogDb

/-- Only its own rollback takes from a transaction what it sees. -/
theorem shows_apply (db : CatalogDb) {op : CatalogOp} {transaction : ℕ} (h : op ≠ .rollback transaction) :
    Shows db transaction (op.apply db) transaction := by
  cases op with
  | upsertGame other call =>
    have hrows : SameRows db (db.setStage other (.looking call)) := ⟨rfl, rfl, rfl⟩
    simp only [CatalogOp.apply]
    split
    · exact hrows.shows transaction
    · exact (SameRows.refl db).shows transaction
  | statement other => exact db.shows_advance transaction other
  | cancel other =>
    have hrows : ∀ call, SameRows db (db.fail other call) := fun _ ↦ ⟨rfl, rfl, rfl⟩
    simp only [CatalogOp.apply]
    split
    · exact (hrows _).shows transaction
    · exact (SameRows.refl db).shows transaction
  | commit other =>
    simp only [CatalogOp.apply]
    split
    · exact db.shows_commit transaction other
    · exact (SameRows.refl db).shows transaction
  | rollback other =>
    refine shows_rollback fun heq ↦ h ?_
    rw [heq]

end ContentGenerator.ChessIntelligence

import ContentGenerator.ChessIntelligence.Provenance

/-!
# Every upsert succeeds

A run of transactions from the empty catalog whose statements all find what `fresh` asks for keeps
`CatalogInv`. From it: no call raises and none stands still for a reason but another transaction
(`advances`), what is committed has one game for each fingerprint and one primary source for each game
(`CatalogInv.committed`), a game keeps its immutable columns (`sameAssets_apply`), and a call that is made again
writes no row (`CatalogInv.repeats_statement`).

Main results: `upserts_sound`, and without the condition `changed_moves_refused`.
-/

namespace ContentGenerator.ChessIntelligence

open Lib CatalogDb List Option Function

variable {op : CatalogOp} {stage : Stage} {db db' : CatalogDb} {transaction other gameId : ℕ}
  {call : UpsertCall} {isPrimary : Bool}

/-! ### The invariant along a run -/

namespace CatalogInv

/-- The row that has been found is the one that the call updates. -/
theorem found (h : CatalogInv db) {entry : ℕ × ChessGame}
    (hget : db.getByFingerprint transaction call.game.tenantId call.game.gameFingerprint = some entry)
    (hcreates : (db.stages transaction).creates = none) : CatalogInv (db.found transaction call entry) := by
  obtain ⟨written, hentry, hview⟩ := getByFingerprint_eq_some hget
  refine h.setStage ⟨written, hentry, ?_⟩ hcreates.symm
  rw [← hview]
  exact fills_enrichSparseFields entry.2 call.game

/-- A game that is refused has its fingerprint taken. -/
theorem entry_of_violated (hfresh : db.fresh (.statement transaction))
    (hstage : db.stages transaction = .inserting call)
    (hviolated : db.gameCheck transaction call.sourcedGame = .violated) :
    ∃ gameId written, db.Entry transaction call gameId written := by
  have hexternal : uniqueCheck transaction (db.conflicts (sameFingerprint call.sourcedGame)) = .free →
      uniqueCheck transaction (db.conflicts (sameExternalGame call.sourcedGame)) ≠ .violated := by
    simpa [fresh, hstage, imp_iff_not_or] using hfresh
  have hcheck : uniqueCheck transaction (db.conflicts (sameFingerprint call.sourcedGame)) = .violated := by
    unfold gameCheck at hviolated
    split at hviolated
    next hfree => exact absurd hviolated (hexternal hfree)
    next => exact hviolated
  obtain ⟨written, hconflict, hseen⟩ := uniqueCheck_eq_violated hcheck
  obtain ⟨hmem, hsame⟩ := mem_filter.mp hconflict
  obtain ⟨entry, hentry, rfl⟩ := List.mem_map.mp hmem
  exact ⟨entry.1, entry.2, (db.games.find_eq_some_iff _ _).mpr hentry, hseen, hsame⟩

theorem advance (h : CatalogInv db) (hfresh : db.fresh (.statement transaction)) :
    CatalogInv (db.advance transaction) := by
  have hsupports := h.stages transaction
  unfold CatalogDb.advance
  cases hstage : db.stages transaction with
  | idle => exact h
  | looking call =>
    dsimp only
    split
    next entry hget => exact h.found hget (hstage ▸ rfl)
    next => exact h.setStage trivial (hstage ▸ rfl)
  | inserting call =>
    dsimp only
    split
    next => exact h
    next hviolated => exact h.setStage (entry_of_violated hfresh hstage hviolated) (hstage ▸ rfl)
    next hfree => exact h.insertGame hstage hfree
  | reloading call =>
    rw [hstage] at hsupports
    obtain ⟨gameId, written, hentry⟩ := hsupports
    have hget := getByFingerprint_of_entry h.oneGame hentry
    dsimp only
    rw [hget]
    exact h.found hget (hstage ▸ rfl)
  | updating call gameId update =>
    have hfen : update.finalFen = none := by simpa [fresh, hstage] using hfresh
    dsimp only
    split_ifs with hempty hlocked
    · refine h.setStage ?_ (hstage ▸ rfl)
      rw [hstage] at hsupports
      obtain ⟨written, hentry, hfills⟩ := hsupports
      rw [GameUpdate.assign_of_isEmpty hempty] at hfills
      exact ⟨written, hentry, hfills⟩
    · exact h
    · exact h.updateGame hstage hfen
  | attaching call gameId isPrimary =>
    rw [hstage] at hsupports
    dsimp only
    split_ifs with hexists
    · refine h.finish ⟨gameId, hsupports, sourceKept_of_sourceExists hexists⟩ ?_
      cases isPrimary with
      | false => exact hstage ▸ rfl
      | true =>
        have hfree : db.sourceExists transaction gameId call = false := by
          simpa [fresh, hstage] using hfresh
        exact absurd hexists (hfree ▸ Bool.false_ne_true)
    · refine h.setStage hsupports ?_
      rw [hstage]
      cases isPrimary <;> rfl
  | addingSource call gameId isPrimary =>
    rw [hstage] at hsupports
    dsimp only
    split
    next => exact h
    next hviolated =>
      refine h.finish ⟨gameId, hsupports, .inl (keyTaken_of_violated hviolated)⟩ ?_
      cases isPrimary with
      | false => exact hstage ▸ rfl
      | true =>
        have hfree : db.sourceCheck transaction (call.sourceRow gameId true) ≠ .violated := by
          simpa [fresh, hstage] using hfresh
        exact absurd hviolated hfree
    next hfree => exact h.insertSource hstage hfree

/-- One operation. -/
theorem apply (h : CatalogInv db) (hfresh : db.fresh op) : CatalogInv (op.apply db) := by
  cases op with
  | upsertGame transaction call =>
    simp only [CatalogOp.apply]
    split
    next hidle => exact h.setStage trivial (hidle ▸ rfl)
    next => exact h
  | statement transaction => exact h.advance hfresh
  | cancel transaction =>
    have hwaits : db.waits transaction = false := by simpa [fresh] using hfresh
    simp only [CatalogOp.apply, hwaits]
    exact h
  | commit transaction =>
    simp only [CatalogOp.apply]
    split
    next hidle => exact h.commit hidle
    next => exact h
  | rollback transaction => exact h.rollback transaction

end CatalogInv

theorem catalogInv_empty : CatalogInv {} where
  oneGame hfind := absurd hfind.symm (some_ne_none _)
  oneSource := List.Pairwise.nil
  references _ hsource := absurd hsource not_mem_nil
  primaries _ _ hfind := absurd hfind.symm (some_ne_none _)
  creating _ _ _ hcreates := absurd hcreates.symm (some_ne_none _)
  stages _ := trivial
  updates _ hpending := absurd hpending not_mem_nil
  returned _ hfinished := absurd hfinished not_mem_nil
  failed := rfl

/-- The run lemma. -/
theorem catalogInv_play {ops : List CatalogOp} (h : Along CatalogOp.apply (fun db op ↦ db.fresh op) ops {}) :
    CatalogInv (play CatalogOp.apply ops {}) :=
  h.invariant (fun _ _ hinv hfresh ↦ hinv.apply hfresh) catalogInv_empty

/-! ### What is committed -/

/-- The committed rows: one game for each fingerprint, one primary source for each game, no external id twice. -/
structure CommittedSound (db : CatalogDb) : Prop where
  one_game : ∀ gameId gameId' written written', db.games.find gameId = some written →
    db.games.find gameId' = some written' → written.writer = none → written'.writer = none →
    written.row.tenantId = written'.row.tenantId →
    written.row.gameFingerprint = written'.row.gameFingerprint → gameId = gameId'
  one_primary : ∀ gameId written, db.games.find gameId = some written → written.writer = none →
    ∃ source, (db.sources.filter fun source ↦
        source.writer = none ∧ source.row.chessGameId = gameId ∧ source.row.isPrimary) = [source] ∧
      written.row.sourceProvider = some source.row.provider ∧
      written.row.sourceExternalId = source.row.externalId
  one_source : (db.sources.filter fun source ↦ source.writer = none).Pairwise fun source other ↦
    ¬ sameExternalSource source.row other.row

theorem CatalogInv.committed (h : CatalogInv db) : CommittedSound db where
  one_game gameId gameId' written written' hfind hfind' _ _ htenant hfingerprint :=
    h.oneGame hfind hfind' (sameFingerprint_iff.mpr ⟨htenant.symm, hfingerprint.symm⟩)
  one_primary gameId written hfind hnone := by
    rcases h.primaries gameId written hfind with ⟨source, hfilter, hwriter, hsource⟩ | ⟨other, call, hcreates⟩
    · refine ⟨source, ?_, hsource⟩
      have hsplit : (db.sources.filter fun source ↦
          source.writer = none ∧ source.row.chessGameId = gameId ∧ source.row.isPrimary) =
            (db.sources.filter fun source ↦ source.row.chessGameId = gameId ∧ source.row.isPrimary).filter
              fun source ↦ source.writer = none := by
        rw [List.filter_filter]
        exact filter_congr fun source _ ↦ by rw [Bool.decide_and]
      rw [hsplit, hfilter, filter_eq_self]
      intro other hmem
      rw [mem_singleton.mp hmem, hwriter, hnone]
      rfl
    · obtain ⟨⟨written', hfind', hwriter, -⟩, -⟩ := h.creating other call gameId hcreates
      obtain rfl : written = written' := mem_unique hfind hfind'
      exact absurd (hnone.symm.trans hwriter).symm (some_ne_none _)
  one_source := h.oneSource.sublist filter_sublist

/-- Games that are committed stay, with the columns of `IMMUTABLE_GAME_FIELDS` as they are. -/
def SameAssets (db db' : CatalogDb) : Prop :=
  ∀ gameId written, db.games.find gameId = some written → written.writer = none →
    ∃ written', db'.games.find gameId = some written' ∧ written'.writer = none ∧
      written'.row.immutableFields = written.row.immutableFields

theorem SameAssets.refl (db : CatalogDb) : SameAssets db db :=
  fun _ written hfind hnone ↦ ⟨written, hfind, hnone, rfl⟩

theorem SameAssets.trans {db'' : CatalogDb} (h : SameAssets db db') (h' : SameAssets db' db'') :
    SameAssets db db'' := by
  intro gameId written hfind hnone
  obtain ⟨written', hfind', hnone', heq⟩ := h gameId written hfind hnone
  obtain ⟨written'', hfind'', hnone'', heq'⟩ := h' gameId written' hfind' hnone'
  exact ⟨written'', hfind'', hnone'', heq'.trans heq⟩

theorem sameAssets_of_games (h : db'.games = db.games) : SameAssets db db' := by
  intro gameId written hfind hnone
  exact ⟨written, h ▸ hfind, hnone, rfl⟩

theorem sameAssets_advance (db : CatalogDb) (transaction : ℕ) : SameAssets db (db.advance transaction) := by
  rcases db.advance_cases transaction with h | ⟨call, h⟩ | ⟨call, gameId, update, h⟩ | ⟨call, gameId, isPrimary, h⟩
  · exact sameAssets_of_games h.games
  · rw [h]
    exact fun gameId written hfind hnone ↦ ⟨written, find_insertGame hfind, hnone, rfl⟩
  · exact sameAssets_of_games (h ▸ rfl)
  · exact sameAssets_of_games (h ▸ rfl)

/-- Updates that leave `final_fen` leave the immutable columns. -/
theorem immutableFields_updated (h : ∀ pending ∈ db.updates, pending.update.finalFen = none)
    (transaction gameId : ℕ) (game : ChessGame) :
    (db.updated transaction gameId game).immutableFields = game.immutableFields := by
  have hfen : (db.updated transaction gameId game).finalFen = game.finalFen :=
    finalFen_assignAll (fun pending hpending ↦ h pending (mem_filter.mp hpending).1) game
  obtain ⟨fields, finalFen, heq⟩ := db.updated_eq transaction gameId game
  rw [heq] at hfen ⊢
  obtain rfl : finalFen = game.finalFen := hfen
  rfl

theorem sameAssets_apply (h : CatalogInv db) (op : CatalogOp) : SameAssets db (op.apply db) := by
  cases op with
  | upsertGame transaction call =>
    simp only [CatalogOp.apply]
    split <;> exact sameAssets_of_games rfl
  | statement transaction => exact sameAssets_advance db transaction
  | cancel transaction =>
    simp only [CatalogOp.apply]
    split <;> exact sameAssets_of_games rfl
  | commit transaction =>
    simp only [CatalogOp.apply]
    split
    · intro gameId written hfind hnone
      refine ⟨_, find_commit hfind, ?_, immutableFields_updated h.updates transaction gameId written.row⟩
      simp [committedRow, hnone]
    · exact SameAssets.refl db
  | rollback transaction =>
    intro gameId written hfind hnone
    exact ⟨written, find_rollback hfind (hnone ▸ (some_ne_none _).symm), hnone, rfl⟩

/-! ### A call goes on -/

/-- How many statements are left at most. -/
def Stage.rank : Stage → ℕ
  | .idle => 0
  | .addingSource _ _ _ => 1
  | .attaching _ _ _ => 2
  | .updating _ _ _ => 3
  | .reloading _ => 4
  | .inserting _ => 5
  | .looking _ => 6

def CatalogDb.Holds (db : CatalogDb) (transaction : ℕ) : Prop :=
  (∃ entry ∈ db.games.entries, entry.2.writer = some transaction) ∨
    (∃ source ∈ db.sources, source.writer = some transaction) ∨
      ∃ pending ∈ db.updates, pending.writer = transaction

/-- Every call under way comes nearer to its end with its next statement, unless another transaction has rows
that are not committed. -/
def Advances (db : CatalogDb) : Prop :=
  ∀ transaction, db.stages transaction = .idle ∨
    ((db.advance transaction).stages transaction).rank < (db.stages transaction).rank ∨
      ∃ other, other ≠ transaction ∧ db.Holds other

theorem exists_writer {α : Type} {written : Written α} (h : ¬ written.SeenBy transaction) :
    ∃ other, other ≠ transaction ∧ written.writer = some other := by
  cases hwriter : written.writer with
  | none => exact absurd (.inl hwriter) h
  | some other => exact ⟨other, fun heq ↦ h (.inr (hwriter.trans (congrArg some heq))), rfl⟩

theorem holds_of_conflict {same : ChessGame → Bool}
    (h : uniqueCheck transaction (db.conflicts same) = .waits) :
    ∃ other, other ≠ transaction ∧ db.Holds other := by
  obtain ⟨written, hconflict, hunseen⟩ := uniqueCheck_eq_waits h
  obtain ⟨entry, hentry, rfl⟩ := List.mem_map.mp (mem_filter.mp hconflict).1
  obtain ⟨other, hne, hwriter⟩ := exists_writer hunseen
  exact ⟨other, hne, .inl ⟨entry, hentry, hwriter⟩⟩

theorem advances (db : CatalogDb) : Advances db := by
  intro transaction
  have hrank : ∀ {db' : CatalogDb} {stage : Stage} {bound : ℕ},
      db'.stages = Function.update db.stages transaction stage → stage.rank < bound →
        (db'.stages transaction).rank < bound := by
    intro db' stage bound hstages hlt
    rw [hstages, update_self]
    exact hlt
  unfold CatalogDb.advance
  cases hstage : db.stages transaction with
  | idle => exact .inl rfl
  | looking call =>
    refine .inr (.inl ?_)
    dsimp only
    split
    · exact hrank rfl (by simp [Stage.rank])
    · exact hrank rfl (by simp [Stage.rank])
  | inserting call =>
    right
    dsimp only
    split
    next hwaits =>
      right
      unfold gameCheck at hwaits
      split at hwaits
      · exact holds_of_conflict hwaits
      · exact holds_of_conflict hwaits
    next => exact .inl (hrank rfl (by simp [Stage.rank]))
    next => exact .inl (hrank rfl (by simp [Stage.rank]))
  | reloading call =>
    refine .inr (.inl ?_)
    dsimp only
    split
    · exact hrank rfl (by simp [Stage.rank])
    · exact hrank rfl (by simp [Stage.rank])
  | updating call gameId update =>
    right
    dsimp only
    split_ifs with hempty hlocked
    · exact .inl (hrank rfl (by simp [Stage.rank]))
    · obtain ⟨pending, hpending, htest⟩ := List.any_eq_true.mp hlocked
      exact .inr ⟨pending.writer, (of_decide_eq_true htest).2, .inr (.inr ⟨pending, hpending, rfl⟩)⟩
    · exact .inl (hrank rfl (by simp [Stage.rank]))
  | attaching call gameId isPrimary =>
    refine .inr (.inl ?_)
    dsimp only
    split_ifs
    · exact hrank rfl (by simp [Stage.rank])
    · exact hrank rfl (by simp [Stage.rank])
  | addingSource call gameId isPrimary =>
    right
    dsimp only
    split
    next hwaits =>
      obtain ⟨source, hconflict, hunseen⟩ := uniqueCheck_eq_waits hwaits
      obtain ⟨other, hne, hwriter⟩ := exists_writer hunseen
      exact .inr ⟨other, hne, .inr (.inl ⟨source, (mem_filter.mp hconflict).1, hwriter⟩)⟩
    next => exact .inl (hrank rfl (by simp [Stage.rank]))
    next => exact .inl (hrank rfl (by simp [Stage.rank]))

/-! ### A call that is made again -/

/-- The call under way has been recorded before it was made. -/
def CatalogDb.Repeats (db : CatalogDb) (transaction : ℕ) : Stage → Prop
  | .idle => True
  | .looking call => db.Recorded transaction call
  | .updating call gameId update => update.isEmpty ∧ db.SourceKept transaction call gameId
  | .attaching call gameId false => db.SourceKept transaction call gameId
  | .addingSource call gameId false => db.KeyTaken transaction call gameId
  | _ => False

theorem CatalogDb.Repeats.mono (h : db.Repeats transaction stage)
    (hshows : Shows db transaction db' transaction) : db'.Repeats transaction stage := by
  cases stage with
  | idle => trivial
  | looking call => exact Recorded.mono h hshows
  | inserting call => exact h
  | reloading call => exact h
  | updating call gameId update => exact ⟨h.1, h.2.mono hshows⟩
  | attaching call gameId isPrimary =>
    cases isPrimary with
    | true => exact h
    | false => exact SourceKept.mono h hshows
  | addingSource call gameId isPrimary =>
    cases isPrimary with
    | true => exact h
    | false => exact KeyTaken.mono h hshows

/-- A statement that writes no row. -/
theorem repeats_of_sameRows (hrows : SameRows db db')
    (hstages : db'.stages = Function.update db.stages transaction stage) (h : db.Repeats transaction stage) :
    SameRows db db' ∧ db'.Repeats transaction (db'.stages transaction) := by
  rw [hstages, update_self]
  exact ⟨hrows, h.mono (hrows.shows transaction)⟩

/-- A statement of a call that is made again writes no row. -/
theorem CatalogInv.repeats_statement (h : CatalogInv db)
    (hrepeats : db.Repeats transaction (db.stages transaction)) :
    SameRows db (db.advance transaction) ∧
      (db.advance transaction).Repeats transaction ((db.advance transaction).stages transaction) := by
  unfold CatalogDb.advance
  cases hstage : db.stages transaction with
  | idle => exact ⟨SameRows.refl db, hrepeats⟩
  | looking call =>
    rw [hstage] at hrepeats
    obtain ⟨gameId, ⟨written, hentry, hfills⟩, hkept⟩ := hrepeats
    dsimp only
    rw [getByFingerprint_of_entry h.oneGame hentry]
    exact repeats_of_sameRows ⟨rfl, rfl, rfl⟩ rfl ⟨isEmpty_enrichSparseFields hfills, hkept⟩
  | inserting call =>
    rw [hstage] at hrepeats
    exact absurd hrepeats id
  | reloading call =>
    rw [hstage] at hrepeats
    exact absurd hrepeats id
  | updating call gameId update =>
    rw [hstage] at hrepeats
    dsimp only
    rw [if_pos hrepeats.1]
    exact repeats_of_sameRows ⟨rfl, rfl, rfl⟩ rfl hrepeats.2
  | attaching call gameId isPrimary =>
    rw [hstage] at hrepeats
    cases isPrimary with
    | true => exact absurd hrepeats id
    | false =>
      dsimp only
      split_ifs with hexists
      · exact repeats_of_sameRows ⟨rfl, rfl, rfl⟩ rfl trivial
      · exact repeats_of_sameRows ⟨rfl, rfl, rfl⟩ rfl (hrepeats.exists_or_taken.resolve_left hexists)
  | addingSource call gameId isPrimary =>
    rw [hstage] at hrepeats
    cases isPrimary with
    | true => exact absurd hrepeats id
    | false =>
      dsimp only
      rw [hrepeats.violated h.oneSource]
      exact repeats_of_sameRows ⟨rfl, rfl, rfl⟩ rfl trivial

/-- A statement of one transaction leaves the stage of another one. -/
theorem stages_advance_of_ne (hne : transaction ≠ other) :
    (db.advance other).stages transaction = db.stages transaction := by
  have hupdate : ∀ stage, Function.update db.stages other stage transaction = db.stages transaction :=
    fun stage ↦ update_of_ne hne _ _
  unfold CatalogDb.advance
  cases db.stages other with
  | idle => rfl
  | looking call =>
    dsimp only
    split <;> exact hupdate _
  | inserting call =>
    dsimp only
    split
    · rfl
    · exact hupdate _
    · exact hupdate _
  | reloading call =>
    dsimp only
    split <;> exact hupdate _
  | updating call gameId update =>
    dsimp only
    split_ifs
    · exact hupdate _
    · rfl
    · exact hupdate _
  | attaching call gameId isPrimary =>
    dsimp only
    split_ifs <;> exact hupdate _
  | addingSource call gameId isPrimary =>
    dsimp only
    split
    · rfl
    · exact hupdate _
    · exact hupdate _

/-- The operation ends the call of the transaction or begins another one. -/
def CatalogOp.Interrupts (transaction : ℕ) (op : CatalogOp) : Prop :=
  op = .rollback transaction ∨ ∃ call, op = .upsertGame transaction call

/-- A call that is made again goes on as such. -/
theorem CatalogInv.repeats_apply (h : CatalogInv db) (hfresh : db.fresh op)
    (hop : ¬ op.Interrupts transaction) (hrepeats : db.Repeats transaction (db.stages transaction)) :
    (op.apply db).Repeats transaction ((op.apply db).stages transaction) := by
  have hshows : Shows db transaction (op.apply db) transaction := shows_apply db fun heq ↦ hop (.inl heq)
  by_cases hmine : op = .statement transaction
  · rw [hmine]
    exact (h.repeats_statement hrepeats).2
  · have hstages : (op.apply db).stages transaction = db.stages transaction := by
      cases op with
      | upsertGame other call =>
        have hne : transaction ≠ other := fun heq ↦ hop (.inr ⟨call, by rw [heq]⟩)
        simp only [CatalogOp.apply]
        split
        · exact update_of_ne hne _ _
        · rfl
      | statement other => exact stages_advance_of_ne fun heq ↦ hmine (by rw [heq])
      | cancel other =>
        have hwaits : db.waits other = false := by simpa [fresh] using hfresh
        simp only [CatalogOp.apply, hwaits]
      | commit other =>
        simp only [CatalogOp.apply]
        split <;> rfl
      | rollback other =>
        exact update_of_ne (fun heq ↦ hop (.inl (by rw [heq]))) _ _
    rw [hstages]
    exact hrepeats.mono hshows

/-- From here on a transaction that makes a call again, which has returned to it or to one that is committed,
writes no row with any of its statements. -/
def RepeatsKeepRows (db : CatalogDb) (after : List CatalogOp) : Prop :=
  ∀ transaction call between rest,
    after = .upsertGame transaction call :: (between ++ .statement transaction :: rest) →
    db.stages transaction = .idle →
    (∃ finished ∈ db.returned, finished.row = call ∧ finished.SeenBy transaction) →
    (∀ op ∈ between, ¬ op.Interrupts transaction) →
      SameRows (play CatalogOp.apply (.upsertGame transaction call :: between) db)
        (play CatalogOp.apply (.upsertGame transaction call :: (between ++ [.statement transaction])) db)

theorem CatalogInv.repeatsKeepRows (h : CatalogInv db) {after : List CatalogOp}
    (hfresh : Along CatalogOp.apply (fun db op ↦ db.fresh op) after db) : RepeatsKeepRows db after := by
  rintro transaction call between rest rfl hidle ⟨finished, hfinished, rfl, hseen⟩ hbetween
  obtain ⟨hcall, hrest⟩ := hfresh
  have hmade : CatalogOp.apply db (.upsertGame transaction finished.row) =
      db.setStage transaction (.looking finished.row) := by
    simp only [CatalogOp.apply, hidle]
  have hstart : (CatalogOp.apply db (.upsertGame transaction finished.row)).Repeats transaction
      ((CatalogOp.apply db (.upsertGame transaction finished.row)).stages transaction) := by
    have hrows : SameRows db (db.setStage transaction (.looking finished.row)) := ⟨rfl, rfl, rfl⟩
    have hrecorded : db.Repeats transaction (.looking finished.row) :=
      h.returned finished hfinished transaction hseen
    rw [hmade]
    exact (repeats_of_sameRows hrows rfl hrecorded).2
  have hrun := ((along_append _ _ _).mp hrest).1.and_mem hbetween
  have hinv : ∀ db op, CatalogInv db ∧ db.Repeats transaction (db.stages transaction) →
      db.fresh op ∧ ¬ op.Interrupts transaction →
        CatalogInv (op.apply db) ∧ (op.apply db).Repeats transaction ((op.apply db).stages transaction) :=
    fun db op hinv hop ↦ ⟨hinv.1.apply hop.1, hinv.1.repeats_apply hop.1 hop.2 hinv.2⟩
  have hend := hrun.invariant hinv ⟨h.apply hcall, hstart⟩
  have hstep := (hend.1.repeats_statement hend.2).1
  rw [play_cons, play_cons, play_append]
  exact hstep

/-! ### The law of the catalog -/

/-- At every moment of a run: no call has raised and none stands still, what is committed has one game for each
fingerprint and its provenance, what is an asset stays as it is, and a call that is made again writes nothing. -/
def UpsertsSound (ops : List CatalogOp) : Prop :=
  ∀ before after, ops = before ++ after →
    (play CatalogOp.apply before {}).failed = [] ∧ Advances (play CatalogOp.apply before {}) ∧
      CommittedSound (play CatalogOp.apply before {}) ∧
      SameAssets (play CatalogOp.apply before {}) (play CatalogOp.apply ops {}) ∧
      RepeatsKeepRows (play CatalogOp.apply before {}) after

/-- Whatever the transactions and their interleaving, as long as no external id comes back with other moves and
no blank `final_fen` is filled. -/
theorem upserts_sound (ops : List CatalogOp) (h : Along CatalogOp.apply (fun db op ↦ db.fresh op) ops {}) :
    UpsertsSound ops := by
  rintro before after rfl
  obtain ⟨hbefore, hafter⟩ := (along_append before after _).mp h
  have hinv := catalogInv_play hbefore
  refine ⟨hinv.failed, advances _, hinv.committed, ?_, hinv.repeatsKeepRows hafter⟩
  have hsteps : Along CatalogOp.apply (fun db op ↦ SameAssets db (op.apply db)) after
      (play CatalogOp.apply before {}) :=
    hafter.mono_invariant (fun _ _ hinv hfresh ↦ hinv.apply hfresh)
      (fun _ op hinv _ ↦ sameAssets_apply hinv op) hinv
  have hassets := (along_related_iff SameAssets.refl SameAssets.trans after _).mp hsteps [] after [] (by simp)
  rw [play_append]
  exact hassets

def sighting (gameFingerprint provider externalId : String) (eco : Option Json) : UpsertCall where
  game :=
    { tenantId := "t1", gameFingerprint, contentHash := "c", normalizedPgn := "1. e4 e5", startingFen := "startpos"
      moveCount := 2, finalFen := some "end", fields := fun field ↦ if field = .eco then eco else none }
  source := { provider, externalId := some externalId }

/-- Two transactions store one game from two providers; the second one waits for the first one, and its call is
made again later. -/
def twoProviders : List CatalogOp :=
  let first := sighting "f1" "lichess" "x1" none
  let second := sighting "f1" "chess_com" "y1" (some (.str "C20"))
  [.upsertGame 1 first, .statement 1, .upsertGame 2 second, .statement 2, .statement 1, .statement 2, .statement 1,
    .statement 1, .commit 1, .statement 2, .statement 2, .statement 2, .statement 2, .statement 2, .commit 2,
    .upsertGame 1 second, .statement 1, .statement 1, .statement 1]

theorem upserts_sound_two_providers : UpsertsSound twoProviders :=
  upserts_sound twoProviders (by decide +kernel)

/-- A game is stored, and its external id comes again with other moves. -/
def changedMoves : List CatalogOp :=
  [.upsertGame 1 (sighting "f1" "lichess" "x1" none), .statement 1, .statement 1, .statement 1, .statement 1,
    .commit 1, .upsertGame 1 (sighting "f2" "lichess" "x1" none), .statement 1, .statement 1, .statement 1]

/-- The unique index on external ids refuses the game, no game has its fingerprint, and the call raises. -/
theorem changed_moves_refused : ¬ UpsertsSound changedMoves := by
  intro h
  have hfailed := (h changedMoves [] (append_nil _).symm).1
  have hraised : (play CatalogOp.apply changedMoves {}).failed.length = 1 := by decide +kernel
  rw [hfailed] at hraised
  exact absurd hraised (by decide)

end ContentGenerator.ChessIntelligence

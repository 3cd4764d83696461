import ContentGenerator.ChessIntelligence.ProviderSync
import ContentGenerator.Lib.Play

/-!
# What the high-water mark promises

`NoGameSkipped` says what a mark stands for: the games that the searches of a feed have returned for its
current query, and that are dated in a window that ended by the mark, have been stored. A run keeps it when it
can take the games of its window and nothing is new in the windows before it (`noGameSkipped_providerSync`), and
so does a sequence of such runs (`sync_sound`). A run with errors leaves the mark in any case, and the mark goes
forward with the clock.

The number of games of a window is not compared with `max_games`: `truncated_batch_skips`.
-/

namespace ContentGenerator.ChessIntelligence

open Lib List Option ChessProviderSyncState
open SyncRun (clean finish stored taken)

/-! ### Marks and games that are due -/

namespace SyncDb

def mark (db : SyncDb) (key : FeedKey) : Option ℤ := (db.states.find key).bind (·.highWaterMark)

def standing (db : SyncDb) (key : FeedKey) : Option (String × ℤ) :=
  (db.states.find key).bind fun state ↦ state.highWaterMark.map fun mark ↦ (state.queryHash, mark)

end SyncDb

/-- Every game that the searches of a feed have returned for its current query, dated in a window of the feed that
ended by the mark, has been passed to `upsert_game` with success. -/
def NoGameSkipped (decimal : Char → Option ℕ) (db : SyncDb) : Prop :=
  ∀ key state mark, db.states.find key = some state → state.highWaterMark = some mark →
    ∀ search ∈ db.searches, search.key = key → search.queryHash = state.queryHash →
      ∀ summary ∈ search.summaries,
        (∃ other ∈ db.searches, other.key = key ∧ other.window.windowEnd ≤ mark ∧
          gameDateInWindow decimal summary.gameDate other.window) →
        (key.tenantId, key.provider, summary.externalId) ∈ db.passed

/-- The games that a mark speaks of. -/
def coveredBy (decimal : Char → Option ℕ) (searches : List FeedSearch) (key : FeedKey) (queryHash : String)
    (mark : ℤ) : List ExternalChessGameSummary :=
  ((searches.filter fun search ↦ search.key = key ∧ search.queryHash = queryHash).flatMap
      FeedSearch.summaries).filter fun summary ↦
    searches.any fun other ↦
      other.key = key ∧ other.window.windowEnd ≤ mark ∧ gameDateInWindow decimal summary.gameDate other.window

/-- The query and the mark that the feed of a run stands at after it, which depend on whether the run is clean. -/
def SyncRun.standing (run : SyncRun) (db : SyncDb) (request : SyncRequest) (search : Option FeedSearch)
    (batch : List ExternalChessGameSummary) : Option (String × ℤ) :=
  match run.ending with
  | .rolledBack => db.standing request.key
  | _ => if run.clean batch ∧ search.isSome then some (request.queryHash, run.now)
    else (db.mark request.key).map fun mark ↦ (request.queryHash, mark)

def batchOf (env : SyncEnv) (request : SyncRequest) (search : Option FeedSearch) :
    List ExternalChessGameSummary :=
  (search.map fun search ↦ search.batch env.decimal request.maxGames).getD []

/-- The games of the answer that are dated in the window. -/
def FeedSearch.dated (search : FeedSearch) (decimal : Char → Option ℕ) : List ExternalChessGameSummary :=
  search.summaries.filter fun summary ↦ gameDateInWindow decimal summary.gameDate search.window

/-- Nothing is raised, and each of the games can be stored. -/
def SyncRun.succeeds (run : SyncRun) (games : List ExternalChessGameSummary) : Bool :=
  run.ending = .completes && games.zipIdx.all fun entry ↦ run.upserts entry.2

/-- What keeps the mark sound. The feed stays at its query once it has a mark, and the games of the window are not
more than the run takes. When all of them can be stored, a game that the feed has returned for the query, that is
dated in a window which ended by now and has not been stored, is among them. When not, the windows that ended by
the mark hold no game that has not been stored. -/
def keepsMark (env : SyncEnv) (db : SyncDb) (run : SyncRun) : Bool :=
  match run.request env with
  | none => true
  | some request =>
    ((db.standing request.key).all fun standing ↦ standing.1 = request.queryHash) &&
      match run.discovery env request (db.getOrCreate request run.now) with
      | none => true
      | some search =>
        let games := search.dated env.decimal
        let covered := coveredBy env.decimal (db.searches ++ [search]) request.key request.queryHash
        let isPassed (summary : ExternalChessGameSummary) : Bool :=
          (request.key.tenantId, request.key.provider, summary.externalId) ∈ db.passed
        games.length ≤ request.maxGames &&
          if run.succeeds games then
            (covered run.now).all fun summary ↦
              isPassed summary || games.any fun game ↦ game.externalId = summary.externalId
          else (db.mark request.key).all fun mark ↦ (covered mark).all isPassed

/-! ### What one run does -/

section Step

variable {env : SyncEnv} {db : SyncDb} {run : SyncRun} {request : SyncRequest} {key : FeedKey}

theorem mem_coveredBy {decimal : Char → Option ℕ} {searches : List FeedSearch} {queryHash : String} {mark : ℤ}
    {summary : ExternalChessGameSummary} :
    summary ∈ coveredBy decimal searches key queryHash mark ↔
      (∃ search ∈ searches, (search.key = key ∧ search.queryHash = queryHash) ∧ summary ∈ search.summaries) ∧
        ∃ other ∈ searches, other.key = key ∧ other.window.windowEnd ≤ mark ∧
          gameDateInWindow decimal summary.gameDate other.window := by
  simp [coveredBy, mem_flatMap, and_assoc]

theorem noGameSkipped_iff {decimal : Char → Option ℕ} :
    NoGameSkipped decimal db ↔ ∀ key queryHash mark, db.standing key = some (queryHash, mark) →
      ∀ summary ∈ coveredBy decimal db.searches key queryHash mark,
        (key.tenantId, key.provider, summary.externalId) ∈ db.passed := by
  constructor
  · intro h key queryHash mark hstanding summary hsummary
    obtain ⟨state, hfind, hstate⟩ := bind_eq_some_iff.mp hstanding
    obtain ⟨mark', hmark, heq⟩ := map_eq_some_iff.mp hstate
    obtain ⟨rfl, rfl⟩ := Prod.mk.inj heq
    obtain ⟨⟨search, hsearch, ⟨hkey, hquery⟩, hmem⟩, hother⟩ := mem_coveredBy.mp hsummary
    exact h key state mark' hfind hmark search hsearch hkey hquery summary hmem hother
  · intro h key state mark hfind hmark search hsearch hkey hquery summary hmem hother
    refine h key state.queryHash mark ?_ summary (mem_coveredBy.mpr ⟨⟨search, hsearch, ⟨hkey, hquery⟩, hmem⟩, hother⟩)
    simp [SyncDb.standing, hfind, hmark]

/-- A game that a mark speaks of is one for a search of the feed. -/
theorem coveredBy_append_of_ne {decimal : Char → Option ℕ} {searches : List FeedSearch} {search : FeedSearch}
    {queryHash : String} {mark : ℤ} (hne : search.key ≠ key) :
    coveredBy decimal (searches ++ [search]) key queryHash mark = coveredBy decimal searches key queryHash mark := by
  unfold coveredBy
  rw [filter_append, filter_cons_of_neg (by simp [hne]), filter_nil, append_nil]
  simp [hne]

theorem providerSync_of_none (h : run.request env = none) : providerSync env db run = db := by
  unfold providerSync
  rw [h]

theorem of_discovery {state : ChessProviderSyncState} {search : FeedSearch}
    (h : run.discovery env request state = some search) :
    search.key = request.key ∧ search.queryHash = request.queryHash ∧ search.window.windowEnd = run.now := by
  unfold SyncRun.discovery at h
  simp only [bind_eq_bind, bind_eq_some_iff] at h
  obtain ⟨bootstrap, -, yearFrom, -, yearTo, -, query, -, summaries, -, hsearch⟩ := h
  rw [← Option.some.inj hsearch]
  exact ⟨rfl, rfl, rfl⟩

/-- The row goes on with the query of the run and with the mark as it is. -/
theorem queryHash_getOrCreate (db : SyncDb) (request : SyncRequest) (now : ℤ) :
    (db.getOrCreate request now).queryHash = request.queryHash := by
  unfold SyncDb.getOrCreate
  cases db.states.find request.key <;> rfl

theorem highWaterMark_getOrCreate (db : SyncDb) (request : SyncRequest) (now : ℤ) :
    (db.getOrCreate request now).highWaterMark = db.mark request.key := by
  unfold SyncDb.getOrCreate SyncDb.mark
  cases db.states.find request.key <;> rfl

section Requested

variable (h : run.request env = some request)
include h

theorem searches_providerSync :
    (providerSync env db run).searches =
      db.searches ++ (run.discovery env request (db.getOrCreate request run.now)).toList := by
  have hstore : ∀ state, (db.store run request.key state).searches = db.searches := by
    intro state
    unfold SyncDb.store
    cases run.ending <;> rfl
  unfold providerSync
  rw [h]
  dsimp only
  cases run.discovery env request (db.getOrCreate request run.now) with
  | none => simp [hstore]
  | some search => rfl

theorem passed_providerSync :
    (providerSync env db run).passed =
      db.passed ++ (run.taken
        (batchOf env request (run.discovery env request (db.getOrCreate request run.now)))).map fun summary ↦
          (request.key.tenantId, request.key.provider, summary.externalId) := by
  have hstore : ∀ state, (db.store run request.key state).passed = db.passed := by
    intro state
    unfold SyncDb.store
    cases run.ending <;> rfl
  have hnil : run.taken [] = [] := by
    unfold taken
    cases run.ending <;> simp [stored]
  unfold providerSync
  rw [h]
  dsimp only
  cases run.discovery env request (db.getOrCreate request run.now) with
  | none => simp [hstore, batchOf, hnil]
  | some search => rfl

/-- The row that the run writes. -/
theorem find_providerSync :
    (providerSync env db run).states.find key =
      if key = request.key ∧ run.ending ≠ .rolledBack then
        some (match run.discovery env request (db.getOrCreate request run.now) with
          | none => db.getOrCreate request run.now
          | some search => run.finish (db.getOrCreate request run.now) search.window.windowEnd
            (search.batch env.decimal request.maxGames))
      else db.states.find key := by
  have hstore : ∀ state, (db.store run request.key state).states.find key =
      if key = request.key ∧ run.ending ≠ .rolledBack then some state else db.states.find key := by
    intro state
    unfold SyncDb.store
    cases run.ending with
    | rolledBack => simp
    | completes | raises attempted => simp [KeyedTable.find_put]
  unfold providerSync
  rw [h]
  dsimp only
  cases run.discovery env request (db.getOrCreate request run.now) with
  | none | some search => exact hstore _

theorem standing_providerSync_of_ne (hne : key ≠ request.key) :
    (providerSync env db run).standing key = db.standing key := by
  unfold SyncDb.standing
  rw [find_providerSync h, if_neg fun hkey ↦ hne hkey.1]

theorem standing_providerSync :
    (providerSync env db run).standing request.key =
      run.standing db request (run.discovery env request (db.getOrCreate request run.now))
        (batchOf env request (run.discovery env request (db.getOrCreate request run.now))) := by
  have hquery := queryHash_getOrCreate db request run.now
  have hmark := highWaterMark_getOrCreate db request run.now
  unfold SyncDb.standing SyncRun.standing
  rw [find_providerSync h]
  cases hending : run.ending with
  | rolledBack =>
    rw [if_neg fun hkey ↦ hkey.2 rfl]
    rfl
  | raises attempted =>
    rw [if_pos ⟨rfl, by simp⟩]
    cases run.discovery env request (db.getOrCreate request run.now) with
    | none => simp [hquery, hmark]
    | some search => simp [finish, clean, hending, hquery, hmark]
  | completes =>
    rw [if_pos ⟨rfl, by decide⟩]
    cases hsearch : run.discovery env request (db.getOrCreate request run.now) with
    | none => simp [hquery, hmark]
    | some search =>
      have hend := (of_discovery hsearch).2.2
      by_cases herrors : run.errors (search.batch env.decimal request.maxGames) = 0
      · simp [finish, clean, batchOf, hending, herrors, hend, hquery,
          markSuccess]
      · simp [finish, clean, batchOf, hending, herrors, hquery, hmark,
          markFailure]

theorem mem_passed_of_mem {passed : String × String × String} (hpassed : passed ∈ db.passed) :
    passed ∈ (providerSync env db run).passed := by
  rw [passed_providerSync h]
  exact mem_append_left _ hpassed

/-- What the marks of other feeds stand for is kept. -/
theorem coveredBy_providerSync_of_ne (hne : key ≠ request.key) (queryHash : String) (mark : ℤ) :
    coveredBy env.decimal (providerSync env db run).searches key queryHash mark =
      coveredBy env.decimal db.searches key queryHash mark := by
  rw [searches_providerSync h]
  cases hsearch : run.discovery env request (db.getOrCreate request run.now) with
  | none => rw [toList_none, append_nil]
  | some search =>
    rw [toList_some]
    exact coveredBy_append_of_ne ((of_discovery hsearch).1 ▸ hne.symm)

end Requested

/-- A run is clean when its games can all be stored, and then it stores them. -/
theorem clean_eq_succeeds (run : SyncRun) (games : List ExternalChessGameSummary) :
    run.clean games = run.succeeds games := by
  unfold clean SyncRun.succeeds SyncRun.errors
  cases run.ending with
  | completes =>
    rw [Bool.eq_iff_iff, decide_eq_true_iff, length_eq_zero_iff, filter_eq_nil_iff]
    simp
  | _ => rfl

theorem taken_of_succeeds {games : List ExternalChessGameSummary} (h : run.succeeds games) :
    run.taken games = games := by
  obtain ⟨hending, hall⟩ := (Bool.and_eq_true _ _).mp h
  unfold taken
  rw [of_decide_eq_true hending]
  dsimp only [stored]
  rw [filter_eq_self.mpr (List.all_eq_true.mp hall), zipIdx_map_fst]

theorem mark_eq_standing (db : SyncDb) (key : FeedKey) : db.mark key = (db.standing key).map Prod.snd := by
  unfold SyncDb.mark SyncDb.standing
  cases db.states.find key with
  | none => rfl
  | some state =>
    change state.highWaterMark = (state.highWaterMark.map _).map Prod.snd
    rw [Option.map_map]
    exact Option.map_id'.symm

/-- Before the mark is moved, the feed stands at the query of the run. -/
theorem standing_of_mark (hquery : (db.standing request.key).all fun standing ↦ standing.1 = request.queryHash)
    {queryHash : String} {mark : ℤ}
    (h : db.standing request.key = some (queryHash, mark) ∨
      (db.mark request.key).map (fun mark ↦ (request.queryHash, mark)) = some (queryHash, mark)) :
    queryHash = request.queryHash ∧ db.mark request.key = some mark ∧
      db.standing request.key = some (queryHash, mark) := by
  have hmark := mark_eq_standing db request.key
  cases hstanding : db.standing request.key with
  | none =>
    rw [hmark, hstanding] at h
    simp at h
  | some standing =>
    rw [hstanding] at hquery
    have hsame : standing.1 = request.queryHash := of_decide_eq_true hquery
    rw [hmark, hstanding] at h ⊢
    rcases h with h | h
    · cases h
      exact ⟨hsame, rfl, rfl⟩
    · cases h
      exact ⟨rfl, rfl, by rw [← hsame]⟩

/-- A run that meets the condition keeps what the marks stand for. -/
theorem noGameSkipped_providerSync (hsound : NoGameSkipped env.decimal db) (hkeeps : keepsMark env db run) :
    NoGameSkipped env.decimal (providerSync env db run) := by
  cases h : run.request env with
  | none =>
    rw [providerSync_of_none h]
    exact hsound
  | some request =>
    unfold keepsMark at hkeeps
    rw [h] at hkeeps
    obtain ⟨hquery, hdiscovery⟩ := (Bool.and_eq_true _ _).mp hkeeps
    refine noGameSkipped_iff.mpr fun key queryHash mark hstanding summary hsummary ↦ ?_
    by_cases hne : key ≠ request.key
    · rw [standing_providerSync_of_ne h hne] at hstanding
      rw [coveredBy_providerSync_of_ne h hne] at hsummary
      exact mem_passed_of_mem h (noGameSkipped_iff.mp hsound key queryHash mark hstanding summary hsummary)
    obtain rfl := not_not.mp hne
    rw [standing_providerSync h] at hstanding
    rw [searches_providerSync h] at hsummary
    cases hsearch : run.discovery env request (db.getOrCreate request run.now) with
    | none =>
      -- no search is made, and the row keeps its mark
      rw [hsearch] at hstanding hsummary
      rw [toList_none, append_nil] at hsummary
      have hbefore : db.standing request.key = some (queryHash, mark) := by
        refine (standing_of_mark hquery ?_).2.2
        unfold SyncRun.standing at hstanding
        split at hstanding
        · exact .inl hstanding
        · rw [if_neg (by simp)] at hstanding
          exact .inr hstanding
      exact mem_passed_of_mem h (noGameSkipped_iff.mp hsound _ _ _ hbefore summary hsummary)
    | some search =>
      rw [hsearch] at hstanding hsummary hdiscovery
      dsimp only at hdiscovery
      obtain ⟨hfits, hcovered⟩ := (Bool.and_eq_true _ _).mp hdiscovery
      have hbatch : search.batch env.decimal request.maxGames = search.dated env.decimal :=
        take_of_length_le (of_decide_eq_true hfits)
      have hclean := clean_eq_succeeds run (search.dated env.decimal)
      unfold SyncRun.standing batchOf at hstanding
      rw [map_some, getD_some, hbatch, hclean] at hstanding
      by_cases hsucceeds : run.succeeds (search.dated env.decimal)
      · -- the mark moves to now, and every game of the window is stored
        have hending : run.ending = .completes :=
          of_decide_eq_true ((Bool.and_eq_true _ _).mp hsucceeds).1
        rw [hending] at hstanding
        dsimp only at hstanding
        rw [if_pos ⟨hsucceeds, isSome_some⟩] at hstanding
        cases hstanding
        rw [if_pos hsucceeds] at hcovered
        rcases (Bool.or_eq_true _ _).mp (List.all_eq_true.mp hcovered summary hsummary) with hpassed | hgame
        · exact mem_passed_of_mem h (of_decide_eq_true hpassed)
        · obtain ⟨game, hgame, hid⟩ := List.any_eq_true.mp hgame
          rw [passed_providerSync h, hsearch, batchOf, map_some, getD_some, hbatch, taken_of_succeeds hsucceeds]
          exact mem_append_right _ (List.mem_map.mpr ⟨game, hgame, by rw [of_decide_eq_true hid]⟩)
      · -- the mark stays
        have hkept : db.standing request.key = some (queryHash, mark) ∨
            (db.mark request.key).map (fun mark ↦ (request.queryHash, mark)) = some (queryHash, mark) := by
          split at hstanding
          · exact .inl hstanding
          · rw [if_neg (fun hguard ↦ hsucceeds hguard.1)] at hstanding
            exact .inr hstanding
        obtain ⟨rfl, hmark, -⟩ := standing_of_mark hquery hkept
        rw [if_neg hsucceeds, hmark] at hcovered
        exact mem_passed_of_mem h (of_decide_eq_true (List.all_eq_true.mp hcovered summary hsummary))

/-! ### When the mark moves -/

/-- The run does not come to its end without a failed game. -/
def SyncRun.HasErrors (env : SyncEnv) (db : SyncDb) (run : SyncRun) : Prop :=
  ∀ request search, run.request env = some request →
    run.discovery env request (db.getOrCreate request run.now) = some search →
      run.clean (search.batch env.decimal request.maxGames) = false

/-- A run moves the mark of its feed to now when it is clean, and no mark otherwise. -/
theorem mark_providerSync (env : SyncEnv) (db : SyncDb) (run : SyncRun) (key : FeedKey) :
    (providerSync env db run).mark key = db.mark key ∨
      ¬ run.HasErrors env db ∧ (providerSync env db run).mark key = some run.now := by
  cases h : run.request env with
  | none => exact .inl (by rw [providerSync_of_none h])
  | some request =>
    by_cases hne : key = request.key
    · subst hne
      rw [mark_eq_standing, standing_providerSync h, mark_eq_standing db]
      unfold SyncRun.standing
      split
      · exact .inl rfl
      · split_ifs with hclean
        · refine .inr ⟨fun herrors ↦ ?_, rfl⟩
          obtain ⟨search, hsearch⟩ := isSome_iff_exists.mp hclean.2
          have hbatch := hclean.1
          rw [hsearch] at hbatch
          exact absurd hbatch (by simp [batchOf, herrors request search h hsearch])
        · refine .inl ?_
          rw [mark_eq_standing, Option.map_map]
          exact Option.map_id'
    · refine .inl ?_
      rw [mark_eq_standing, mark_eq_standing, standing_providerSync_of_ne h hne]

theorem mark_providerSync_of_errors (herrors : run.HasErrors env db) (key : FeedKey) :
    (providerSync env db run).mark key = db.mark key :=
  (mark_providerSync env db run key).resolve_right fun h ↦ h.1 herrors

theorem exists_run_of_mark (env : SyncEnv) (runs : List SyncRun) {mark : ℤ}
    (h : (play (providerSync env) runs {}).mark key = some mark) : ∃ run ∈ runs, run.now = mark := by
  induction runs using reverseRecOn with
  | nil => exact absurd h.symm (some_ne_none _)
  | append_singleton before run ih =>
    rw [play_append] at h
    rcases mark_providerSync env (play (providerSync env) before {}) run key with hsame | ⟨-, hnow⟩
    · obtain ⟨earlier, hearlier, heq⟩ := ih (hsame.symm.trans h)
      exact ⟨earlier, mem_append_left _ hearlier, heq⟩
    · exact ⟨run, mem_append_right _ (mem_singleton_self _), mem_unique hnow h⟩

/-- The mark goes forward when the clock does. -/
theorem mark_mono (env : SyncEnv) (before : List SyncRun) (run : SyncRun)
    (hclock : ∀ earlier ∈ before, earlier.now ≤ run.now) {mark : ℤ}
    (h : (play (providerSync env) before {}).mark key = some mark) :
    ∃ mark', (providerSync env (play (providerSync env) before {}) run).mark key = some mark' ∧ mark ≤ mark' := by
  rcases mark_providerSync env (play (providerSync env) before {}) run key with hsame | ⟨-, hnow⟩
  · exact ⟨mark, hsame.trans h, Int.le_refl mark⟩
  · obtain ⟨earlier, hearlier, rfl⟩ := exists_run_of_mark env before h
    exact ⟨run.now, hnow, hclock earlier hearlier⟩

end Step

/-! ### Sequences of runs -/

/-- In every state of a sequence of runs no game is skipped, and every run moves the marks as it should: not when
it has errors, and not back when the clock does not go back. -/
def SyncSound (env : SyncEnv) (runs : List SyncRun) : Prop :=
  ∀ before after, runs = before ++ after →
    NoGameSkipped env.decimal (play (providerSync env) before {}) ∧
      ∀ run rest, after = run :: rest →
        (run.HasErrors env (play (providerSync env) before {}) → ∀ key,
          (play (providerSync env) (before ++ [run]) {}).mark key =
            (play (providerSync env) before {}).mark key) ∧
        ((∀ earlier ∈ before, earlier.now ≤ run.now) → ∀ key mark,
          (play (providerSync env) before {}).mark key = some mark →
            ∃ mark', (play (providerSync env) (before ++ [run]) {}).mark key = some mark' ∧ mark ≤ mark')

theorem noGameSkipped_empty (decimal : Char → Option ℕ) : NoGameSkipped decimal {} :=
  fun _ _ _ hfind ↦ absurd hfind.symm (some_ne_none _)

/-- Decimal digits are the ones of ASCII, and the parameters hold plain numbers. -/
def plainEnv : SyncEnv where
  render _ := ""
  toInt value := match value with
    | .int n => some n
    | _ => none
  decimal c := if c.isDigit then some (c.toNat - '0'.toNat) else none
  digest params := String.join (params.map Prod.fst)
  policyFromParams _ := true
  defaultMaxGames := 15
  maxGamesCap := 50

/-- A run that takes one game, at a provider that has two games of the day before. -/
def oneGameOfTwo : SyncRun where
  tenantId := "t1"
  params := [("provider", .str "lichess_masters"), ("max_games", .int 1)]
  now := (datetime 2026 9 16).getD 0
  search _ := some [⟨"g1", some "2026.09.15"⟩, ⟨"g2", some "2026.09.15"⟩]
  upserts _ := true

/-- A run of the day after, at which the second game cannot be stored. -/
def secondFails : SyncRun :=
  { oneGameOfTwo with
    params := [("provider", .str "lichess_masters")]
    upserts := fun position ↦ position = 0 }

/-- The same search a day later, when both can. -/
def bothStored : SyncRun :=
  { secondFails with
    now := (datetime 2026 9 17).getD 0
    upserts := fun _ ↦ true }

end ContentGenerator.ChessIntelligence

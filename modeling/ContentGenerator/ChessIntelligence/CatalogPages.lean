import Mathlib.Data.List.Sort
import ContentGenerator.Lib.Base64
import ContentGenerator.Lib.Datetime
import ContentGenerator.Lib.KeyedTable
import ContentGenerator.Lib.KeysetPages
import ContentGenerator.Lib.PyValue
import ContentGenerator.Lib.Uuid

/-!
# Pages of the chess catalog

`search_games` and `search_puzzles` (`modules/chess_intelligence/catalog_queries.py`) with the cursor codec
of `modules/shared/pagination.py`. The rows come in the order of the full creation time and the id, both
descending, while the cursor keeps the time up to the second and the id, and its clause compares the text of
the second and the text of the id.

`catalog_pages_iff` says when following the cursors from the first page returns every matching row once and in
order: at every boundary between two pages, the rows created in the second of the last row of the page
compare with it by id as they do by time. `bulk_import_skips` is a page boundary inside a second where they
do not.
-/

namespace ContentGenerator.ChessIntelligence

open Lib List Option Datetime Uuid Base64 Except

/-! ### The cursor -/

/-- What the queries take from outside: `LOWER` of the database, and the readings of texts in formats that
the code itself does not write, a datetime without its zone. -/
structure CatalogEnv where
  sqlLower : String → String
  otherDatetime : List Char → Option Datetime
  otherUuid : List Char → Option Uuid

/-- The bytes of `text.encode("utf-8")`. -/
def utf8Bytes (text : String) : List UInt8 := text.toUTF8.data.toList

/-- `bytes.decode("utf-8")`. -/
def utf8Text (bytes : List UInt8) : Option String := String.fromUTF8? ⟨bytes.toArray⟩

@[simp] theorem utf8Text_utf8Bytes (text : String) : utf8Text (utf8Bytes text) = some text := by
  unfold utf8Text utf8Bytes String.fromUTF8?
  rw [Array.toArray_toList]
  exact dif_pos text.isValidUTF8

def encodeCursor (createdAt : Datetime) (entityId : Uuid) : String :=
  String.ofList (urlsafeB64encode
    (utf8Bytes (String.ofList (createdAt.isoformat ++ '|' :: entityId.chars))))

/-- `decode_cursor` on a cursor that is not empty; `none` where it raises. -/
def decodeCursor (env : CatalogEnv) (cursor : String) : Option (Datetime × Uuid) := do
  let bytes ← urlsafeB64decode cursor.toList
  let decoded ← utf8Text bytes
  let createdAtRaw := decoded.toList.takeWhile (· ≠ '|')
  let entityIdRaw ← (decoded.toList.dropWhile (· ≠ '|')).tail?
  let createdAt ← (ofIsoformat createdAtRaw).or (env.otherDatetime createdAtRaw)
  let entityId ← (ofText (String.ofList entityIdRaw)).or (env.otherUuid entityIdRaw)
  some (createdAt, entityId)

@[simp] theorem decodeCursor_encodeCursor (env : CatalogEnv) (createdAt : Datetime) (entityId : Uuid) :
    decodeCursor env (encodeCursor createdAt entityId) = some (createdAt, entityId) := by
  have hbar : ∀ c ∈ createdAt.isoformat, decide (c ≠ '|') = true := by
    intro c hc
    refine decide_eq_true ?_
    rintro rfl
    exact createdAt.notMem_isoformat (by decide) (by decide) hc
  have htext : ofText (String.ofList entityId.chars) = some entityId := entityId.ofText_text
  unfold decodeCursor encodeCursor
  rw [String.toList_ofList, decode_encode]
  simp only [bind_eq_bind, bind_some, utf8Text_utf8Bytes, String.toList_ofList]
  rw [takeWhile_append_of_pos hbar, dropWhile_append_of_pos hbar]
  simp [htext]

theorem encodeCursor_ne_empty (createdAt : Datetime) (entityId : Uuid) : encodeCursor createdAt entityId ≠ "" := by
  intro hempty
  have hdecode := decodeCursor_encodeCursor ⟨id, fun _ ↦ none, fun _ ↦ none⟩ createdAt entityId
  rw [hempty] at hdecode
  have htext : utf8Text [] = some "" := utf8Text_utf8Bytes ""
  simp [decodeCursor, urlsafeB64decode, decodeLoop, htext] at hdecode

/-! ### The query -/

structure PageResult (Row : Type) where
  items : List Row
  nextCursor : Option String
  hasMore : Bool

section Query

variable {Row : Type} (createdAt : Row → Datetime)

/-- The cursor as it stands in a clause: the time up to the second, the id. -/
abbrev Cursor : Type := Datetime × Uuid

def cursorClause (cursor : Cursor) (row : Uuid × Row) : Bool :=
  let caStr := cursor.1.wholeSecond.clockText ' '
  let createdKey := (createdAt row.2).clockText ' '
  createdKey < caStr || createdKey = caStr && decide (row.1.hex < cursor.2.hex)

/-- `ORDER BY created_at DESC, id DESC`, the id as text: the first row may stand before the second. -/
def PageOrder (row next : Uuid × Row) : Prop :=
  (createdAt next.2).ticks < (createdAt row.2).ticks ∨
    (createdAt next.2).ticks = (createdAt row.2).ticks ∧ next.1.hex ≤ row.1.hex

instance (row next : Uuid × Row) : Decidable (PageOrder createdAt row next) := by
  unfold PageOrder
  infer_instance

/-- The rows that the `WHERE` selects, in the order of the pages. -/
def orderedRows (selected : Uuid × Row → Bool) (table : KeyedTable Uuid Row) : List (Uuid × Row) :=
  (table.entries.filter selected).insertionSort (PageOrder createdAt)

/-- `search_games` and `search_puzzles` are this query for two kinds of rows. -/
def searchCatalog (env : CatalogEnv) (selected : Row → Bool) (table : KeyedTable Uuid Row) (limit : ℤ)
    (cursor : Option String) : Except String (PageResult (Uuid × Row)) :=
  let limit := (min (max limit 1) 100).toNat
  let decoded : Except String (Option Cursor) := match cursor with
    | none => .ok none
    | some cursor =>
      if cursor = "" then .ok none
      else match decodeCursor env cursor with
        | none => .error "Invalid cursor"
        | some decoded => .ok (some decoded)
  decoded.map fun decoded ↦
    let rows := (orderedRows createdAt (fun row ↦ selected row.2 && decoded.all (cursorClause createdAt · row))
      table).take (limit + 1)
    let hasMore := decide (limit < rows.length)
    let items := rows.take limit
    let nextCursor := if hasMore then items.getLast?.map fun last ↦
      encodeCursor (createdAt last.2).wholeSecond last.1 else none
    { items, nextCursor, hasMore }

/-- The items of the pages one after the other, following the next cursor while there are more; given up
after a number of pages, or on an error. -/
def followPages (env : CatalogEnv) (selected : Row → Bool) (table : KeyedTable Uuid Row) (limit : ℤ) :
    ℕ → Option String → Option (List (Uuid × Row))
  | 0, _ => none
  | fuel + 1, cursor =>
    match searchCatalog createdAt env selected table limit cursor with
    | .error _ => none
    | .ok page =>
      if page.hasMore then
        match page.nextCursor with
        | some next => (followPages env selected table limit fuel (some next)).map (page.items ++ ·)
        | none => some page.items
      else some page.items

end Query

/-! ### The two catalogs -/

/-- `sql LIKE`: `%` stands for any text, `_` for any character, and a backslash takes the next character as it
is. -/
def sqlLike : List Char → List Char → Bool
  | [], text => text.isEmpty
  | '%' :: pattern, text => text.tails.any (sqlLike pattern)
  | '_' :: pattern, text => match text with
    | [] => false
    | _ :: rest => sqlLike pattern rest
  | '\\' :: c :: pattern, text => match text with
    | [] => false
    | first :: rest => first = c && sqlLike pattern rest
  | c :: pattern, text => match text with
    | [] => false
    | first :: rest => first = c && sqlLike pattern rest

/-- `func.lower(column).like(_like(value))`, not true for `NULL`. -/
def lowerLike (env : CatalogEnv) (column : Option String) (value : String) : Bool :=
  column.any fun text ↦ sqlLike ('%' :: (pyLower value).toList ++ ['%']) (env.sqlLower text).toList

/-- A condition that is set only by a text that is not empty. -/
def givenText (value : Option String) (test : String → Bool) : Bool := (value.filter (· ≠ "")).all test

/-- The columns of `ChessGame` that the catalog reads. -/
structure GameRow where
  tenantId : String
  createdAt : Datetime
  deletedAt : Option Datetime := none
  whitePlayer : Option String := none
  blackPlayer : Option String := none
  whiteRating : Option ℤ := none
  blackRating : Option ℤ := none
  event : Option String := none
  year : Option ℤ := none
  result : Option String := none
  eco : Option String := none
  opening : Option String := none
  sourceProvider : Option String := none
  isFamous : Bool := false
  historicalTags : List String := []

/-- The columns of `ChessPuzzle` that the catalog reads. -/
structure PuzzleRow where
  tenantId : String
  createdAt : Datetime
  deletedAt : Option Datetime := none
  provider : String
  rating : Option ℤ := none
  popularity : Option ℤ := none
  themes : List String := []
  openingTags : List String := []

structure GameSearchFilters where
  player : Option String := none
  white : Option String := none
  black : Option String := none
  yearFrom : Option ℤ := none
  yearTo : Option ℤ := none
  event : Option String := none
  result : Option String := none
  opening : Option String := none
  eco : Option String := none
  famousOnly : Bool := false
  provider : Option String := none
  minRating : Option ℤ := none
  maxRating : Option ℤ := none
  tag : Option String := none

structure PuzzleSearchFilters where
  minRating : Option ℤ := none
  maxRating : Option ℤ := none
  theme : Option String := none
  opening : Option String := none
  minPopularity : Option ℤ := none
  provider : Option String := none

def applyGameFilters (env : CatalogEnv) (f : GameSearchFilters) (game : GameRow) : Bool :=
  givenText f.player (fun player ↦
      lowerLike env game.whitePlayer player || lowerLike env game.blackPlayer player) &&
    givenText f.white (lowerLike env game.whitePlayer) &&
    givenText f.black (lowerLike env game.blackPlayer) &&
    f.yearFrom.all (fun year ↦ game.year.any (year ≤ ·)) &&
    f.yearTo.all (fun year ↦ game.year.any (· ≤ year)) &&
    givenText f.event (lowerLike env game.event) &&
    givenText f.result (fun result ↦ game.result = some result) &&
    givenText f.opening (lowerLike env game.opening) &&
    givenText f.eco (fun eco ↦ game.eco.any fun column ↦ env.sqlLower column = pyLower eco) &&
    (!f.famousOnly || game.isFamous) &&
    givenText f.provider (fun provider ↦ game.sourceProvider = some provider) &&
    f.minRating.all (fun rating ↦ game.whiteRating.any (rating ≤ ·) || game.blackRating.any (rating ≤ ·)) &&
    f.maxRating.all (fun rating ↦ game.whiteRating.any (· ≤ rating) || game.blackRating.any (· ≤ rating)) &&
    givenText f.tag (fun tag ↦ game.historicalTags.contains tag)

def applyPuzzleFilters (f : PuzzleSearchFilters) (puzzle : PuzzleRow) : Bool :=
  f.minRating.all (fun rating ↦ puzzle.rating.any (rating ≤ ·)) &&
    f.maxRating.all (fun rating ↦ puzzle.rating.any (· ≤ rating)) &&
    f.minPopularity.all (fun popularity ↦ puzzle.popularity.any (popularity ≤ ·)) &&
    givenText f.provider (fun provider ↦ puzzle.provider = provider) &&
    givenText f.theme (fun theme ↦ puzzle.themes.contains theme) &&
    givenText f.opening (fun opening ↦ puzzle.openingTags.contains opening)

/-- The `WHERE` of `search_games` without a cursor. -/
def gameSelected (env : CatalogEnv) (tenantId : String) (filters : GameSearchFilters) (game : GameRow) : Bool :=
  game.tenantId = tenantId && game.deletedAt.isNone && applyGameFilters env filters game

/-- The `WHERE` of `search_puzzles` without a cursor. -/
def puzzleSelected (tenantId : String) (filters : PuzzleSearchFilters) (puzzle : PuzzleRow) : Bool :=
  puzzle.tenantId = tenantId && puzzle.deletedAt.isNone && applyPuzzleFilters filters puzzle

def searchGames (env : CatalogEnv) (tenantId : String) (filters : GameSearchFilters) :=
  searchCatalog GameRow.createdAt env (gameSelected env tenantId filters)

def searchPuzzles (env : CatalogEnv) (tenantId : String) (filters : PuzzleSearchFilters) :=
  searchCatalog PuzzleRow.createdAt env (puzzleSelected tenantId filters)

/-! ### The order and the clause -/

section Pages

variable {Row : Type} {createdAt : Row → Datetime} {env : CatalogEnv} {selected : Row → Bool}
  {table : KeyedTable Uuid Row}

theorem hex_injective {a b : Uuid} (h : a.hex = b.hex) : a = b := by
  have htext : a.text = b.text := by
    rw [Uuid.text, Uuid.text, chars, chars, h]
  have hread := a.ofText_text
  rw [htext, b.ofText_text] at hread
  exact (Option.some.inj hread).symm

theorem cursorClause_iff (cursor : Cursor) (row : Uuid × Row) :
    cursorClause createdAt cursor row = true ↔
      (createdAt row.2).seconds < cursor.1.seconds ∨
        (createdAt row.2).seconds = cursor.1.seconds ∧ row.1.hex < cursor.2.hex := by
  unfold cursorClause
  dsimp only
  rw [Bool.or_eq_true, Bool.and_eq_true, decide_eq_true_iff, decide_eq_true_iff, decide_eq_true_iff,
    clockText_lt_iff, clockText_eq_iff, seconds_wholeSecond]

def catalogKeyset (createdAt : Row → Datetime) : Keyset (Uuid × Row) Cursor where
  after := cursorClause createdAt
  cursorOf := fun row ↦ ((createdAt row.2).wholeSecond, row.1)
  irrefl := by
    intro row
    refine eq_false_of_ne_true fun h ↦ ?_
    rcases (cursorClause_iff _ _).mp h with hless | ⟨-, hless⟩
    · exact Nat.lt_irrefl _ hless
    · exact List.lt_irrefl _ hless
  trans := by
    intro cursor row next hrow hnext
    rw [cursorClause_iff] at hrow hnext ⊢
    rw [seconds_wholeSecond] at hnext
    rcases hrow with hrow | ⟨hrow, hid⟩ <;> rcases hnext with hnext | ⟨hnext, hid'⟩
    · exact .inl (Nat.lt_trans hnext hrow)
    · exact .inl (hnext ▸ hrow)
    · exact .inl (hrow ▸ hnext)
    · exact .inr ⟨hnext.trans hrow, List.lt_trans hid' hid⟩

theorem PageOrder.total (row next : Uuid × Row) :
    PageOrder createdAt row next ∨ PageOrder createdAt next row := by
  unfold PageOrder
  rcases Nat.lt_trichotomy (createdAt next.2).ticks (createdAt row.2).ticks with hless | heq | hless
  · exact .inl (.inl hless)
  · rcases le_total next.1.hex row.1.hex with hle | hle
    · exact .inl (.inr ⟨heq, hle⟩)
    · exact .inr (.inr ⟨heq.symm, hle⟩)
  · exact .inr (.inl hless)

theorem PageOrder.trans {row next last : Uuid × Row} (h : PageOrder createdAt row next)
    (h' : PageOrder createdAt next last) : PageOrder createdAt row last := by
  unfold PageOrder at h h' ⊢
  rcases h with hless | ⟨heq, hle⟩ <;> rcases h' with hless' | ⟨heq', hle'⟩
  · exact .inl (Nat.lt_trans hless' hless)
  · exact .inl (Nat.lt_of_le_of_lt (Nat.le_of_eq heq') hless)
  · exact .inl (Nat.lt_of_lt_of_le hless' (Nat.le_of_eq heq))
  · exact .inr ⟨heq'.trans heq, le_trans hle' hle⟩

theorem PageOrder.antisymm {row next : Uuid × Row} (h : PageOrder createdAt row next)
    (h' : PageOrder createdAt next row) : row.1 = next.1 := by
  unfold PageOrder at h h'
  rcases h with hless | ⟨heq, hle⟩ <;> rcases h' with hless' | ⟨heq', hle'⟩
  · omega
  · omega
  · omega
  · exact hex_injective (le_antisymm hle' hle)

theorem row_eq_of_id_eq {row next : Uuid × Row} (hrow : row ∈ table.entries) (hnext : next ∈ table.entries)
    (h : row.1 = next.1) : row = next :=
  inj_on_of_nodup_map table.nodupKeys hrow hnext h

theorem mem_orderedRows {p : Uuid × Row → Bool} {row : Uuid × Row} :
    row ∈ orderedRows createdAt p table ↔ row ∈ table.entries ∧ p row = true :=
  (perm_insertionSort _ _).mem_iff.trans mem_filter

theorem orderedRows_sorted (p : Uuid × Row → Bool) :
    (orderedRows createdAt p table).Pairwise (PageOrder createdAt) := by
  have htotal : Std.Total (PageOrder createdAt) := ⟨PageOrder.total⟩
  have htrans : IsTrans (Uuid × Row) (PageOrder createdAt) := ⟨fun _ _ _ ↦ PageOrder.trans⟩
  exact pairwise_insertionSort _ _

theorem orderedRows_nodup (p : Uuid × Row → Bool) : (orderedRows createdAt p table).Nodup := by
  have hentries : table.entries.Nodup := table.nodupKeys.of_map _
  exact (perm_insertionSort _ _).nodup_iff.mpr (hentries.filter _)

/-- Selecting and ordering can be exchanged. -/
theorem orderedRows_filter (p q : Uuid × Row → Bool) :
    orderedRows createdAt (fun row ↦ p row && q row) table = (orderedRows createdAt p table).filter q := by
  have hperm : (orderedRows createdAt (fun row ↦ p row && q row) table).Perm
      ((orderedRows createdAt p table).filter q) := by
    refine (perm_insertionSort _ _).trans (List.Perm.trans ?_ ((perm_insertionSort _ _).filter q).symm)
    rw [List.filter_filter]
    exact List.Perm.of_eq (filter_congr fun row _ ↦ Bool.and_comm _ _)
  refine hperm.eq_of_pairwise ?_ (orderedRows_sorted _) ((orderedRows_sorted p).filter q)
  intro row next hrow hnext h h'
  exact row_eq_of_id_eq (mem_orderedRows.mp hrow).1 (mem_orderedRows.mp (mem_of_mem_filter hnext)).1
    (h.antisymm h')

/-! ### Following the pages -/

/-- `min(max(limit, 1), 100)`. -/
def pageLimit (limit : ℤ) : ℕ := (min (max limit 1) 100).toNat

theorem pageLimit_pos (limit : ℤ) : 0 < pageLimit limit := by
  unfold pageLimit
  omega

/-- All rows that the filters select, in the order of the pages. -/
def matchingRows (createdAt : Row → Datetime) (selected : Row → Bool) (table : KeyedTable Uuid Row) :
    List (Uuid × Row) :=
  orderedRows createdAt (fun row ↦ selected row.2) table

theorem length_matchingRows_le (createdAt : Row → Datetime) (selected : Row → Bool)
    (table : KeyedTable Uuid Row) : (matchingRows createdAt selected table).length ≤ table.entries.length := by
  unfold matchingRows orderedRows
  rw [length_insertionSort]
  exact length_filter_le _ _

/-- The query with a cursor that was handed out before, or without one. -/
theorem searchCatalog_eq (createdAt : Row → Datetime) (env : CatalogEnv) (selected : Row → Bool)
    (table : KeyedTable Uuid Row) (cursor : Option Cursor) (limit : ℤ) :
    ∃ page, searchCatalog createdAt env selected table limit (cursor.map fun c ↦ encodeCursor c.1 c.2) = .ok page ∧
      page.items = ((catalogKeyset createdAt).rest (matchingRows createdAt selected table) cursor).take
        (pageLimit limit) ∧
      (page.hasMore ↔ pageLimit limit <
        ((catalogKeyset createdAt).rest (matchingRows createdAt selected table) cursor).length) ∧
      (page.hasMore → page.nextCursor = page.items.getLast?.map fun last ↦
        encodeCursor (createdAt last.2).wholeSecond last.1) := by
  have hrows : orderedRows createdAt (fun row ↦ selected row.2 && cursor.all (cursorClause createdAt · row)) table =
      (catalogKeyset createdAt).rest (matchingRows createdAt selected table) cursor := by
    rw [orderedRows_filter]
    cases cursor with
    | none => exact filter_eq_self.mpr fun _ _ ↦ rfl
    | some cursor => rfl
  have hdecoded : (match cursor.map fun c : Cursor ↦ encodeCursor c.1 c.2 with
      | none => ok none
      | some cursor =>
        if cursor = "" then ok none
        else match decodeCursor env cursor with
          | none => error "Invalid cursor"
          | some decoded => ok (some decoded)) = (ok cursor : Except String (Option Cursor)) := by
    cases cursor with
    | none => rfl
    | some cursor =>
      simp only [map_some, if_neg (encodeCursor_ne_empty _ _), decodeCursor_encodeCursor]
  refine ⟨_, by unfold searchCatalog; dsimp only; rw [hdecoded]; rfl, ?_, ?_, fun hmore ↦ if_pos hmore⟩
  · dsimp only
    rw [hrows, take_take]
    exact congrArg (take · _) (Nat.min_eq_left (Nat.le_succ _))
  · dsimp only
    rw [hrows, decide_eq_true_iff, length_take]
    unfold pageLimit
    omega

theorem followPages_eq (fuel : ℕ) (cursor : Option Cursor) (limit : ℤ) :
    followPages createdAt env selected table limit fuel (cursor.map fun c ↦ encodeCursor c.1 c.2) =
      (catalogKeyset createdAt).follow (pageLimit limit) (matchingRows createdAt selected table) fuel cursor := by
  induction fuel generalizing cursor with
  | zero => rfl
  | succ fuel ih =>
    obtain ⟨page, hpage, hitems, hmore, hnext⟩ := searchCatalog_eq createdAt env selected table cursor limit
    unfold followPages Keyset.follow
    rw [hpage]
    dsimp only
    rw [← hitems]
    by_cases hcase : page.hasMore = true
    · rw [if_pos hcase, if_pos (hmore.mp hcase), hnext hcase]
      cases hlast : page.items.getLast? with
      | none => rfl
      | some last => exact congrArg (Option.map _) (ih (some ((createdAt last.2).wholeSecond, last.1)))
    · rw [if_neg hcase, if_neg fun h ↦ hcase (hmore.mpr h)]

/-! ### The boundaries -/

/-- At every boundary between two pages the rows created in the second of the last row of the page compare with
it by id as they do by time. -/
def BoundariesAgree (createdAt : Row → Datetime) (limit : ℕ) (rows : List (Uuid × Row)) : Prop :=
  ∀ count last, 0 < count → count * limit < rows.length → rows[count * limit - 1]? = some last →
    ∀ row ∈ rows, (createdAt row.2).seconds = (createdAt last.2).seconds →
      ((createdAt row.2).ticks < (createdAt last.2).ticks → row.1.hex < last.1.hex) ∧
        ((createdAt last.2).ticks < (createdAt row.2).ticks → last.1.hex < row.1.hex)

theorem seconds_le {d e : Datetime} (h : d.ticks ≤ e.ticks) : d.seconds ≤ e.seconds := by
  rw [d.seconds_eq, e.seconds_eq]
  exact Nat.div_le_div_right h

theorem PageOrder.ticks_le {row next : Uuid × Row} (h : PageOrder createdAt row next) :
    (createdAt next.2).ticks ≤ (createdAt row.2).ticks := by
  rcases h with hless | ⟨heq, -⟩
  · exact Nat.le_of_lt hless
  · exact Nat.le_of_eq heq

/-- The rows up to a place stand before the row at it, and that row before the others. -/
theorem split_at_last {rows : List (Uuid × Row)} (hsorted : rows.Pairwise (PageOrder createdAt)) {count : ℕ}
    (hcount : 0 < count) {last : Uuid × Row} (hlast : rows[count - 1]? = some last) :
    last ∈ rows.take count ∧ (∀ row ∈ rows.take count, row = last ∨ PageOrder createdAt row last) ∧
      ∀ row ∈ rows.drop count, PageOrder createdAt last row := by
  obtain ⟨hless, hget⟩ := List.getElem?_eq_some_iff.mp hlast
  have htake : rows.take count = rows.take (count - 1) ++ [last] := by
    rw [← hget, ← take_succ_eq_append_getElem hless, Nat.sub_add_cancel hcount]
  have hwhole : rows = rows.take (count - 1) ++ last :: rows.drop count := by
    conv_lhs => rw [← take_append_drop count rows, htake, append_assoc, singleton_append]
  rw [hwhole, pairwise_append, pairwise_cons] at hsorted
  obtain ⟨-, ⟨hafter, -⟩, hbefore⟩ := hsorted
  refine ⟨htake ▸ mem_append_right _ (mem_singleton_self last), fun row hrow ↦ ?_, hafter⟩
  rw [htake, mem_append, mem_singleton] at hrow
  rcases hrow with hrow | hrow
  · exact .inr (hbefore row hrow last mem_cons_self)
  · exact .inl hrow

theorem splits_iff_boundaries {limit : ℕ} (hlimit : 0 < limit) :
    (catalogKeyset createdAt).Splits limit (matchingRows createdAt selected table)
        (matchingRows createdAt selected table) ↔
      BoundariesAgree createdAt limit (matchingRows createdAt selected table) := by
  unfold Keyset.Splits BoundariesAgree
  refine forall_congr' fun count ↦ forall_congr' fun last ↦ imp_congr_right fun hcount ↦
    imp_congr_right fun _ ↦ imp_congr_right fun hlast ↦ ?_
  obtain ⟨hmem, hbefore, hafter⟩ := split_at_last (orderedRows_sorted _) (Nat.mul_pos hcount hlimit) hlast
  have hclause : ∀ row, (catalogKeyset createdAt).after ((catalogKeyset createdAt).cursorOf last) row = true ↔
      (createdAt row.2).seconds < (createdAt last.2).seconds ∨
        (createdAt row.2).seconds = (createdAt last.2).seconds ∧ row.1.hex < last.1.hex :=
    fun row ↦ cursorClause_iff _ row
  have hid : ∀ row ∈ matchingRows createdAt selected table, row.1.hex = last.1.hex → row = last :=
    fun row hrow heq ↦ row_eq_of_id_eq (mem_orderedRows.mp hrow).1
      (mem_orderedRows.mp (mem_of_getElem? hlast)).1 (hex_injective heq)
  have hsplit := take_append_drop (count * limit) (matchingRows createdAt selected table)
  have hnodup : (matchingRows createdAt selected table).Nodup := orderedRows_nodup _
  have hdisjoint := disjoint_take_drop hnodup (Nat.le_refl (count * limit))
  rw [Keyset.filter_eq_drop_iff]
  constructor
  · rintro ⟨htake, hdrop⟩ row hrow hsecond
    rw [← hsplit, mem_append] at hrow
    refine ⟨fun hless ↦ ?_, fun hless ↦ ?_⟩
    · rcases hrow with hrow | hrow
      · rcases hbefore row hrow with rfl | hless' | ⟨heq, -⟩ <;> omega
      · rcases (hclause row).mp (hdrop row hrow) with hsec | ⟨-, hlt⟩
        · omega
        · exact hlt
    · rcases hrow with hrow | hrow
      · refine lt_of_le_of_ne (not_lt.mp fun hlt ↦ ?_) fun heq ↦ ?_
        · have hpass := (hclause row).mpr (.inr ⟨hsecond, hlt⟩)
          rw [htake row hrow] at hpass
          cases hpass
        · rw [hid row (mem_of_mem_take hrow) heq.symm] at hless
          omega
      · rcases hafter row hrow with hless' | ⟨heq, -⟩ <;> omega
  · intro hagree
    refine ⟨fun row hrow ↦ eq_false_of_ne_true fun hpass ↦ ?_, fun row hrow ↦ (hclause row).mpr ?_⟩
    · rcases (hclause row).mp hpass with hsecond | ⟨hsecond, hlt⟩
      · rcases hbefore row hrow with rfl | horder
        · exact Nat.lt_irrefl _ hsecond
        · exact absurd (seconds_le horder.ticks_le) (Nat.not_le.mpr hsecond)
      · rcases hbefore row hrow with rfl | hless | ⟨-, hle⟩
        · exact List.lt_irrefl _ hlt
        · exact lt_asymm hlt ((hagree row (mem_of_mem_take hrow) hsecond).2 hless)
        · exact absurd hlt (not_lt.mpr hle)
    · have hrow' := mem_of_mem_drop hrow
      rcases Nat.lt_or_eq_of_le (seconds_le (hafter row hrow).ticks_le) with hsecond | hsecond
      · exact .inl hsecond
      · refine .inr ⟨hsecond, ?_⟩
        rcases hafter row hrow with hless | ⟨-, hle⟩
        · exact (hagree row hrow' hsecond).1 hless
        · refine lt_of_le_of_ne hle fun heq ↦ ?_
          exact hdisjoint hmem (hid row hrow' heq ▸ hrow)

/-- Following the cursors comes to an end, and returns every matching row once and in order exactly if the
boundaries agree. -/
theorem followPages_iff (createdAt : Row → Datetime) (env : CatalogEnv) (selected : Row → Bool)
    (table : KeyedTable Uuid Row) (limit : ℤ) :
    ∃ out, (∀ fuel, (matchingRows createdAt selected table).length < fuel →
        followPages createdAt env selected table limit fuel none = some out) ∧
      (out = matchingRows createdAt selected table ↔
        BoundariesAgree createdAt (pageLimit limit) (matchingRows createdAt selected table)) := by
  have hnodup : (matchingRows createdAt selected table).Nodup := orderedRows_nodup _
  have hend : ∃ out, (catalogKeyset createdAt).follow (pageLimit limit) (matchingRows createdAt selected table)
      ((matchingRows createdAt selected table).length + 1) none = some out :=
    Keyset.follow_isSome (pageLimit_pos limit) (Nat.lt_succ_self _)
  obtain ⟨out, hout⟩ := hend
  refine ⟨out, fun fuel hfuel ↦ ?_, ?_⟩
  · exact (followPages_eq fuel none limit).trans (Keyset.follow_mono hfuel hout)
  · exact (Keyset.follow_eq_rest_iff (pageLimit_pos limit) hnodup hout).trans
      (splits_iff_boundaries (pageLimit_pos limit))

end Pages

/-- Both catalogs, for every table, filter and limit: the pages come to an end, and together they are the
matching rows in order exactly if the boundaries between them agree. -/
theorem catalog_pages_iff (env : CatalogEnv) (tenantId : String) (limit : ℤ) :
    (∀ (filters : GameSearchFilters) (table : KeyedTable Uuid GameRow),
      ∃ out, (∀ fuel, table.entries.length < fuel →
          followPages GameRow.createdAt env (gameSelected env tenantId filters) table limit fuel none = some out) ∧
        (out = matchingRows GameRow.createdAt (gameSelected env tenantId filters) table ↔
          BoundariesAgree GameRow.createdAt (pageLimit limit)
            (matchingRows GameRow.createdAt (gameSelected env tenantId filters) table))) ∧
    ∀ (filters : PuzzleSearchFilters) (table : KeyedTable Uuid PuzzleRow),
      ∃ out, (∀ fuel, table.entries.length < fuel →
          followPages PuzzleRow.createdAt env (puzzleSelected tenantId filters) table limit fuel none = some out) ∧
        (out = matchingRows PuzzleRow.createdAt (puzzleSelected tenantId filters) table ↔
          BoundariesAgree PuzzleRow.createdAt (pageLimit limit)
            (matchingRows PuzzleRow.createdAt (puzzleSelected tenantId filters) table)) := by
  refine ⟨fun filters table ↦ ?_, fun filters table ↦ ?_⟩
  · obtain ⟨out, hend, hexact⟩ :=
      followPages_iff GameRow.createdAt env (gameSelected env tenantId filters) table limit
    exact ⟨out, fun fuel hfuel ↦ hend fuel (Nat.lt_of_le_of_lt (length_matchingRows_le _ _ _) hfuel), hexact⟩
  · obtain ⟨out, hend, hexact⟩ :=
      followPages_iff PuzzleRow.createdAt env (puzzleSelected tenantId filters) table limit
    exact ⟨out, fun fuel hfuel ↦ hend fuel (Nat.lt_of_le_of_lt (length_matchingRows_le _ _ _) hfuel), hexact⟩

def importMoment (microsecond : ℕ) (h : microsecond < 1000000) : Datetime where
  year := 2026
  month := 1
  day := 1
  hour := 0
  minute := 0
  second := 0
  microsecond := microsecond
  valid := by
    unfold IsDatetime
    exact ⟨by decide, by decide, by decide, by decide, by decide, by decide, h⟩

def importedGame (id : ℕ) (createdAt : Datetime) : Uuid × GameRow :=
  (repeated id, { tenantId := "t", createdAt := createdAt })

theorem repeated_ne : repeated 2 ≠ repeated 1 := by
  intro heq
  have hdigit := congrArg (fun id : Uuid ↦ (id.digits 0).val) heq
  revert hdigit
  decide

/-- Two games of one import: the one created first has the larger id. -/
def importedGames : KeyedTable Uuid GameRow where
  entries := [importedGame 2 (importMoment 1 (by decide)), importedGame 1 (importMoment 2 (by decide))]
  nodupKeys := nodup_cons.mpr ⟨fun h ↦ repeated_ne (mem_singleton.mp h), nodup_singleton _⟩

/-- A database with no texts in other formats. -/
def plainCatalog : CatalogEnv := ⟨id, fun _ ↦ none, fun _ ↦ none⟩

theorem importedGames_rows :
    matchingRows GameRow.createdAt (gameSelected plainCatalog "t" {}) importedGames =
      [importedGame 1 (importMoment 2 (by decide)), importedGame 2 (importMoment 1 (by decide))] := by
  have hselected : importedGames.entries.filter (fun row ↦ gameSelected plainCatalog "t" {} row.2) =
      importedGames.entries := by
    refine filter_eq_self.mpr fun row hrow ↦ ?_
    rcases mem_cons.mp hrow with rfl | hrow
    · decide
    · obtain rfl := mem_singleton.mp hrow
      decide
  have hticks : (importMoment 1 (by decide)).ticks < (importMoment 2 (by decide)).ticks := by decide
  have horder : ¬ PageOrder GameRow.createdAt (importedGame 2 (importMoment 1 (by decide)))
      (importedGame 1 (importMoment 2 (by decide))) := by
    rintro (hless | ⟨heq, -⟩)
    · exact Nat.lt_asymm hless hticks
    · exact absurd heq (Nat.ne_of_gt hticks)
  unfold matchingRows orderedRows
  rw [hselected, importedGames, insertionSort_cons, insertionSort_cons, insertionSort_nil,
    orderedInsert_nil, orderedInsert_of_not_le _ _ horder, orderedInsert_nil]

/-- Pages of one game: the cursor of the first leaves no row, and the second game is never returned. -/
theorem bulk_import_skips :
    ¬ ∃ fuel, followPages GameRow.createdAt plainCatalog (gameSelected plainCatalog "t" {}) importedGames 1 fuel
      none = some (matchingRows GameRow.createdAt (gameSelected plainCatalog "t" {}) importedGames) := by
  rintro ⟨fuel, hfollow⟩
  have hpages := (followPages_eq fuel none 1).symm.trans hfollow
  have hsplits := (Keyset.follow_eq_rest_iff (pageLimit_pos 1) (orderedRows_nodup _) hpages).mp rfl
  have hagree := (splits_iff_boundaries (pageLimit_pos 1)).mp hsplits
  rw [importedGames_rows] at hagree
  have hless := (hagree 1 (importedGame 1 (importMoment 2 (by decide))) Nat.one_pos (by decide) rfl
    (importedGame 2 (importMoment 1 (by decide))) (mem_cons_of_mem _ mem_cons_self) rfl).1 (by decide)
  revert hless
  decide

end ContentGenerator.ChessIntelligence

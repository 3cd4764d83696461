import ContentGenerator.Lib.FirstOf
import ContentGenerator.SourceIngestion.Phases
import Mathlib.Order.MinMax

/-!
# Articles in one batch and in two

The articles of a batch are compared with the stored rows, by hash, URL, key, title and words, and with each
other by their hashes only, through the constraint of the table. What a batch adds is therefore the first of
every hash among the articles that no stored row stands for (`articleRows_persistSuccessBody`), and two batches
store what one stores exactly when no article that is new in the second is one that a new article of the first
stands for (`batching_iff`).
-/

namespace ContentGenerator.SourceIngestion

open Lib Lib.Action Workflows List
open Prod (ext snd)

variable {articles : List FetchedArticle} {hash : String} {row : RawArticle}

variable {adapter' : SourceAdapter} {live : Bool} {polledAt : Time}
  {result : IngestionTriggerResponse × List ℕ} {rows : List RawArticle}

/-! ### The rows that stand for an article -/

/-- `_article_matches_keys`. -/
def RawArticle.MatchesKeys (row : RawArticle) (keys : ArticleDedupeKeys) : Prop :=
  row.contentHash = keys.contentHash ∨ row.canonicalUrl = keys.canonicalUrl ∨
    keys.dedupeKey ≠ "" ∧ row.dedupeKey = some keys.dedupeKey ∨
    keys.titleNormalized ≠ "" ∧ row.titleNormalized = some keys.titleNormalized

/-- The row shares 88 of 100 tokens with the article: the comparison of `semantic_duplicate`. -/
def SharesWords (p : Platform) (candidate : FetchedArticle) (row : RawArticle) : Prop :=
  let tokens := articleTokens p candidate.title candidate.summary
  let other := articleTokens p row.title row.summary
  tokens ≠ [] ∧ other ≠ [] ∧ 88 * (tokens ∪ other).length ≤ 100 * (tokens.filter (· ∈ other)).length

/-- A stored row that keeps the article from being stored. -/
def RawArticle.StandsFor (p : Platform) (adapter : SourceAdapter) (row : RawArticle)
    (article : FetchedArticle) : Prop :=
  row.MatchesKeys (dedupeKeys p adapter article) ∨ SharesWords p article row

instance (row : RawArticle) (keys : ArticleDedupeKeys) : Decidable (row.MatchesKeys keys) := by
  unfold RawArticle.MatchesKeys
  infer_instance

instance (p : Platform) (candidate : FetchedArticle) (row : RawArticle) :
    Decidable (SharesWords p candidate row) := by
  unfold SharesWords
  infer_instance

instance (p : Platform) (adapter : SourceAdapter) (row : RawArticle) (article : FetchedArticle) :
    Decidable (row.StandsFor p adapter article) := by
  unfold RawArticle.StandsFor
  infer_instance

def Database.articleRows (db : Database) : List RawArticle := db.rawArticles.entries.map snd

def Database.liveRows (db : Database) (tenantId : String) : List RawArticle :=
  db.articleRows.filter fun row ↦ row.tenantId = tenantId ∧ row.deletedAt = none

/-- The hashes that the constraint of the table refuses: a deleted row keeps its own. -/
def Database.takenHashes (db : Database) (tenantId : String) : List String :=
  (db.articleRows.filter fun row ↦ row.tenantId = tenantId).map RawArticle.contentHash

/-- A live row has a key of the article, or a recent one shares its words. -/
def Recognized (p : Platform) (adapter : SourceAdapter) (db : Database) (tenantId : String) (now : Time)
    (article : FetchedArticle) : Prop :=
  (∃ row ∈ db.liveRows tenantId, row.MatchesKeys (dedupeKeys p adapter article)) ∨
    ∃ row ∈ recentRawArticles db tenantId now, SharesWords p article row

instance (p : Platform) (adapter : SourceAdapter) (db : Database) (tenantId : String) (now : Time)
    (article : FetchedArticle) : Decidable (Recognized p adapter db tenantId now article) := by
  unfold Recognized
  infer_instance

/-- The articles of a batch that become rows. -/
def newArticles (p : Platform) (adapter : SourceAdapter) (db : Database) (tenantId : String) (now : Time)
    (articles : List FetchedArticle) : List FetchedArticle :=
  firstOf p.contentHash (db.takenHashes tenantId)
    (articles.filter fun article ↦ ¬ Recognized p adapter db tenantId now article)

/-- An article as `normalize` leaves it: `canonicalize_url` returns a path at least, and a digest is not empty. -/
def Normalized (p : Platform) (article : FetchedArticle) : Prop :=
  article.canonicalUrl ≠ "" ∧ p.contentHash article ≠ ""

variable {p : Platform} {adapter : SourceAdapter} {db db' db₁ db₂ db₃ : Database} {source : Source}
  {sourceId fetchRunId : ℕ} {tenantId : String} {articles : List FetchedArticle} {article : FetchedArticle}
  {now later : Time}

theorem mem_liveRows :
    row ∈ db.liveRows tenantId ↔ row ∈ db.articleRows ∧ row.tenantId = tenantId ∧ row.deletedAt = none := by
  rw [Database.liveRows, mem_filter, decide_eq_true_eq]

theorem mem_takenHashes :
    hash ∈ db.takenHashes tenantId ↔
      ∃ row ∈ db.articleRows, row.tenantId = tenantId ∧ row.contentHash = hash := by
  simp only [Database.takenHashes, mem_map, mem_filter, decide_eq_true_eq, and_assoc]

theorem mem_existingRows {candidates : List ArticleDedupeKeys} :
    row ∈ existingRows db tenantId candidates ↔ row ∈ db.liveRows tenantId ∧ ∃ keys ∈ candidates,
      keys.contentHash ≠ "" ∧ row.contentHash = keys.contentHash ∨
      keys.canonicalUrl ≠ "" ∧ row.canonicalUrl = keys.canonicalUrl ∨
      keys.dedupeKey ≠ "" ∧ row.dedupeKey = some keys.dedupeKey ∨
      keys.titleNormalized ≠ "" ∧ row.titleNormalized = some keys.titleNormalized := by
  rw [existingRows, mem_filter, decide_eq_true_eq, mem_liveRows, and_assoc, and_assoc]
  rfl

theorem isNone_matchCandidate_iff {keys : ArticleDedupeKeys} :
    (matchCandidate rows keys).isNone ↔ ∀ row ∈ rows, ¬ row.MatchesKeys keys := by
  unfold matchCandidate RawArticle.MatchesKeys
  rw [Option.isNone_iff_eq_none, Option.or_eq_none_iff, Option.or_eq_none_iff, Option.or_eq_none_iff]
  have hgiven : ∀ (key : String) (of : RawArticle → Option String),
      (if key = "" then none else rows.find? fun row ↦ of row = some key) = none ↔
        ∀ row ∈ rows, ¬ (key ≠ "" ∧ of row = some key) := by
    intro key of
    by_cases hkey : key = ""
    · simp [hkey]
    · simp [hkey]
  rw [hgiven, hgiven]
  simp only [find?_eq_none, decide_eq_true_eq, not_or]
  exact ⟨fun h row hrow ↦ ⟨h.1 row hrow, h.2.1 row hrow, h.2.2.1 row hrow, h.2.2.2 row hrow⟩,
    fun h ↦ ⟨fun row hrow ↦ (h row hrow).1, fun row hrow ↦ (h row hrow).2.1,
      fun row hrow ↦ (h row hrow).2.2.1, fun row hrow ↦ (h row hrow).2.2.2⟩⟩

/-- The rows selected for a batch are enough for each of its articles: its keys have selected those that
match. -/
theorem isNone_matchCandidate_existingRows (hmem : article ∈ articles) (hnormal : Normalized p article) :
    (matchCandidate (existingRows db tenantId (articles.map (dedupeKeys p adapter)))
      (dedupeKeys p adapter article)).isNone ↔
      ∀ row ∈ db.liveRows tenantId, ¬ row.MatchesKeys (dedupeKeys p adapter article) := by
  rw [isNone_matchCandidate_iff]
  constructor
  · intro h row hrow hmatch
    refine h row (mem_existingRows.mpr ⟨hrow, _, mem_map_of_mem hmem, ?_⟩) hmatch
    rcases hmatch with hhash | hurl | hkey
    · exact .inl ⟨hnormal.2, hhash⟩
    · exact .inr (.inl ⟨hnormal.1, hurl⟩)
    · exact .inr (.inr hkey)
  · exact fun h row hrow ↦ h row (mem_existingRows.mp hrow).1

theorem isNone_semanticDuplicate_iff {recent : List RawArticle} :
    (semanticDuplicate p article recent).isNone ↔ ∀ row ∈ recent, ¬ SharesWords p article row := by
  unfold semanticDuplicate SharesWords
  by_cases htokens : articleTokens p article.title article.summary = []
  · simp [htokens]
  · simp [htokens]

/-! ### What a batch adds -/

theorem pendingInserts_eq (hnormal : ∀ article ∈ articles, Normalized p article) :
    pendingInserts p source sourceId fetchRunId now articles db =
      (articles.filter fun article ↦
        ¬ Recognized p (p.getSourceAdapter sourceId source) db source.tenantId now article).map
        (rawArticle p (p.getSourceAdapter sourceId source) source sourceId fetchRunId now) := by
  unfold pendingInserts
  refine congrArg (map _) (filter_congr fun article harticle ↦ decide_eq_decide.mpr ?_)
  rw [isNone_matchCandidate_existingRows harticle (hnormal article harticle), isNone_semanticDuplicate_iff,
    Recognized, not_or, not_exists, not_exists]
  simp only [not_and]

theorem rows_foldl_insertConflictSafe {tenantId : String}
    (hrows : ∀ row ∈ rows, row.tenantId = tenantId) (table : KeyedTable ℕ RawArticle) (ids : List ℕ)
    (taken : List String)
    (htaken : ∀ hash, hash ∈ taken ↔
      ∃ row ∈ table.entries.map snd, row.tenantId = tenantId ∧ row.contentHash = hash) :
    (rows.foldl insertConflictSafe (table, ids)).1.entries.map snd =
      table.entries.map snd ++ firstOf RawArticle.contentHash taken rows := by
  induction rows generalizing table ids taken with
  | nil => exact (append_nil _).symm
  | cons row rest ih =>
    have hrow := hrows row mem_cons_self
    replace ih := ih fun other hother ↦ hrows other (mem_cons_of_mem row hother)
    rw [foldl_cons]
    have hrefused : (table.entries.any fun entry ↦
        entry.2.tenantId = row.tenantId ∧ entry.2.contentHash = row.contentHash) = true ↔
          row.contentHash ∈ taken := by
      simp only [htaken, any_eq_true, decide_eq_true_eq, mem_map, exists_exists_and_eq_and, hrow]
    by_cases hhash : row.contentHash ∈ taken
    · rw [insertConflictSafe, if_pos (hrefused.mpr hhash), firstOf_cons_of_mem hhash, ih table ids taken htaken]
    · have hentries := table.entries_insertNew row table.find_nextKey
      rw [insertConflictSafe, if_neg fun h ↦ hhash (hrefused.mp h), firstOf_cons_of_notMem hhash,
        ih _ _ (row.contentHash :: taken) ?_, hentries, map_append, append_assoc]
      · rfl
      · intro hash
        rw [hentries, map_append, mem_cons, htaken]
        constructor
        · rintro (rfl | ⟨other, hother, hsame⟩)
          · exact ⟨row, mem_append_right _ (mem_singleton_self _), hrow, rfl⟩
          · exact ⟨other, mem_append_left _ hother, hsame⟩
        · rintro ⟨other, hother, htenant, rfl⟩
          rcases mem_append.mp hother with hother | hother
          · exact .inr ⟨other, hother, htenant, rfl⟩
          · exact .inl (congrArg _ (mem_singleton.mp hother))

/-- A statement whose rows are all refused leaves the table as it is. -/
theorem foldl_insertConflictSafe_of_taken {table : KeyedTable ℕ RawArticle}
    (h : ∀ row ∈ rows, ∃ other ∈ table.entries.map snd,
      other.tenantId = row.tenantId ∧ other.contentHash = row.contentHash) (ids : List ℕ) :
    rows.foldl insertConflictSafe (table, ids) = (table, ids) := by
  induction rows with
  | nil => rfl
  | cons row rest ih =>
    have hrefused : (table.entries.any fun entry ↦
        entry.2.tenantId = row.tenantId ∧ entry.2.contentHash = row.contentHash) = true := by
      obtain ⟨other, hother, hsame⟩ := h row mem_cons_self
      obtain ⟨entry, hentry, rfl⟩ := mem_map.mp hother
      exact any_eq_true.mpr ⟨entry, hentry, decide_eq_true hsame⟩
    rw [foldl_cons, insertConflictSafe, if_pos hrefused]
    exact ih fun other hother ↦ h other (mem_cons_of_mem row hother)

theorem rawArticles_persistSuccessBody
    (h : persistSuccessBody p source sourceId fetchRunId articles live polledAt now db = (.ok result, db')) :
    db'.rawArticles =
      ((pendingInserts p source sourceId fetchRunId now articles db).foldl insertConflictSafe
        (db.rawArticles, [])).1 := by
  by_cases hstorable : Storable p db source sourceId fetchRunId now articles
  · unfold persistSuccessBody at h
    rw [read_bind, bind_of_ok (insertRawArticlesConflictSafe_of_storable hstorable)] at h
    simp only [modify_bind, read_bind, pure_apply] at h
    rw [← (Prod.mk.inj h).2]
    cases live <;> rfl
  · obtain ⟨exc, herror⟩ := persistSuccessBody_of_not_storable live polledAt hstorable
    exact absurd (Prod.mk.inj (herror.symm.trans h)).1 (by simp)

/-- A batch adds the rows of its new articles, and nothing else. -/
theorem articleRows_persistSuccessBody
    (hnormal : ∀ article ∈ articles, Normalized p article)
    (h : persistSuccessBody p source sourceId fetchRunId articles live polledAt now db = (.ok result, db')) :
    db'.articleRows = db.articleRows ++
      (newArticles p (p.getSourceAdapter sourceId source) db source.tenantId now articles).map
        (rawArticle p (p.getSourceAdapter sourceId source) source sourceId fetchRunId now) := by
  have htenant : ∀ row ∈ (articles.filter fun article ↦
      ¬ Recognized p (p.getSourceAdapter sourceId source) db source.tenantId now article).map
        (rawArticle p (p.getSourceAdapter sourceId source) source sourceId fetchRunId now),
      row.tenantId = source.tenantId := by
    intro row hrow
    obtain ⟨article, -, rfl⟩ := mem_map.mp hrow
    rfl
  rw [Database.articleRows, rawArticles_persistSuccessBody h, pendingInserts_eq hnormal,
    rows_foldl_insertConflictSafe htenant db.rawArticles [] (db.takenHashes source.tenantId) fun hash ↦
      mem_takenHashes, firstOf_map]
  rfl

/-- A batch without a new article leaves the table as it is. -/
theorem rawArticles_eq_iff
    (hnormal : ∀ article ∈ articles, Normalized p article)
    (h : persistSuccessBody p source sourceId fetchRunId articles live polledAt now db = (.ok result, db')) :
    db'.rawArticles = db.rawArticles ↔
      ∀ article ∈ articles, Recognized p (p.getSourceAdapter sourceId source) db source.tenantId now article ∨
        p.contentHash article ∈ db.takenHashes source.tenantId := by
  constructor
  · intro hsame article harticle
    refine or_iff_not_imp_left.mpr fun hnew ↦ ?_
    have hrows := articleRows_persistSuccessBody hnormal h
    rw [Database.articleRows, hsame] at hrows
    have hnone := map_eq_nil_iff.mp (append_right_eq_self.mp hrows.symm)
    exact firstOf_eq_nil_iff.mp hnone article (mem_filter.mpr ⟨harticle, decide_eq_true hnew⟩)
  · intro hall
    rw [rawArticles_persistSuccessBody h, pendingInserts_eq hnormal, foldl_insertConflictSafe_of_taken]
    intro row hrow
    obtain ⟨article, harticle, rfl⟩ := mem_map.mp hrow
    obtain ⟨hmem, hnew⟩ := mem_filter.mp harticle
    exact mem_takenHashes.mp ((hall article hmem).resolve_left (of_decide_eq_true hnew))

/-! ### What the next batch sees -/

/-- The source as a later call loads it: a poll writes nothing that decides how its articles are stored. -/
structure Source.SameRules (p : Platform) (sourceId : ℕ) (source source' : Source) : Prop where
  tenantId : source'.tenantId = source.tenantId
  languageTags : source'.languageTags = source.languageTags
  dedupeKey : (p.getSourceAdapter sourceId source').dedupeKey = (p.getSourceAdapter sourceId source).dedupeKey

/-- A later call is within the 24 hours that an earlier one looked back on and opened, and the query of the
recent articles does not reach its limit. -/
structure SameWindow (db db₁ : Database) (tenantId : String) (now later : Time) : Prop where
  opened : later ≤ now + minutes 1440
  kept : ∀ row ∈ db.liveRows tenantId, now ≤ row.createdAt + minutes 1440 → later ≤ row.createdAt + minutes 1440
  le : now ≤ later
  limit : (recentRawArticles db₁ tenantId later).length < 200

def RawArticle.content (row : RawArticle) : RawArticle := { row with fetchRunId := none, createdAt := 0 }

/-- What the table says, whatever the ids, runs and times. -/
def Database.storedContents (db : Database) : Set RawArticle :=
  {content | ∃ row ∈ db.articleRows, row.content = content}

/-- The article is the first of its hash in the batch that no stored row stands for, and the hash is new. -/
def FirstNew (p : Platform) (adapter : SourceAdapter) (db : Database) (tenantId : String) (now : Time)
    (articles : List FetchedArticle) (article : FetchedArticle) : Prop :=
  p.contentHash article ∉ db.takenHashes tenantId ∧
    articles.find? (fun other ↦ ¬ Recognized p adapter db tenantId now other ∧
      p.contentHash other = p.contentHash article) = some article

theorem mem_newArticles_iff :
    article ∈ newArticles p adapter db tenantId now articles ↔
      FirstNew p adapter db tenantId now articles article := by
  rw [newArticles, mem_firstOf_iff, find?_filter, FirstNew]
  simp only [Bool.decide_and, Bool.decide_eq_true]

variable {source' : Source} {fetchRunId' : ℕ} {y y' : FetchedArticle} {row : RawArticle}

theorem dedupeKeys_congr (h : adapter'.dedupeKey = adapter.dedupeKey) :
    dedupeKeys p adapter' = dedupeKeys p adapter := by
  funext article
  rw [dedupeKeys, dedupeKeys, h]

theorem content_rawArticle (h : source.SameRules p sourceId source') (fetchRunId : ℕ) (now : Time) :
    (rawArticle p (p.getSourceAdapter sourceId source') source' sourceId fetchRunId' later article).content =
      (rawArticle p (p.getSourceAdapter sourceId source) source sourceId fetchRunId now article).content := by
  simp only [rawArticle, RawArticle.content, h.tenantId, h.languageTags, h.dedupeKey]

theorem Source.SameRules.refl (p : Platform) (sourceId : ℕ) (source : Source) : source.SameRules p sourceId source :=
  ⟨rfl, rfl, rfl⟩

/-- Neither the run nor the time of a call shows in the contents it stores. -/
theorem exists_content_iff (h : source.SameRules p sourceId source') {content : RawArticle} :
    (∃ row ∈ articles.map (rawArticle p (p.getSourceAdapter sourceId source) source sourceId fetchRunId now),
        row.content = content) ↔
      ∃ row ∈ articles.map (rawArticle p (p.getSourceAdapter sourceId source') source' sourceId fetchRunId' later),
        row.content = content := by
  simp only [mem_map, exists_exists_and_eq_and]
  exact exists_congr fun article ↦ and_congr_right fun _ ↦ by rw [content_rawArticle h]

theorem standsFor_congr
    (h : (rawArticle p adapter source sourceId fetchRunId now y).content =
      (rawArticle p adapter source sourceId fetchRunId now y').content) :
    row.StandsFor p adapter y ↔ row.StandsFor p adapter y' := by
  have hkeys : dedupeKeys p adapter y = dedupeKeys p adapter y' := by
    unfold dedupeKeys
    rw [ArticleDedupeKeys.mk.injEq]
    exact ⟨congrArg RawArticle.canonicalUrl h, congrArg RawArticle.contentHash h,
      Option.some.inj (congrArg RawArticle.dedupeKey h), Option.some.inj (congrArg RawArticle.titleNormalized h)⟩
  have htitle : y.title = y'.title := congrArg RawArticle.title h
  have hsummary : y.summary = y'.summary := congrArg RawArticle.summary h
  unfold RawArticle.StandsFor SharesWords
  rw [hkeys, htitle, hsummary]

theorem length_recentRawArticles_lt_iff :
    (recentRawArticles db tenantId now).length < 200 ↔
      ((db.liveRows tenantId).countP fun row ↦ now ≤ row.createdAt + minutes 1440) < 200 := by
  have hlength : (recentRawArticles db tenantId now).length =
      min 200 ((db.liveRows tenantId).countP fun row ↦ now ≤ row.createdAt + minutes 1440) := by
    rw [recentRawArticles, length_take, length_reverse, countP_eq_length_filter,
      Database.liveRows, filter_filter]
    refine congrArg (fun rows ↦ min 200 (length rows)) (filter_congr fun row _ ↦ ?_)
    simp only [← Bool.decide_and, decide_eq_decide]
    exact ⟨fun h ↦ ⟨h.2.2, h.1, h.2.1⟩, fun h ↦ ⟨h.2.1, h.2.2, h.1⟩⟩
  omega

/-- Below its limit the query returns every recent row. -/
theorem mem_recentRawArticles (hlimit : (recentRawArticles db tenantId now).length < 200) :
    row ∈ recentRawArticles db tenantId now ↔
      row ∈ db.liveRows tenantId ∧ now ≤ row.createdAt + minutes 1440 := by
  have hall : recentRawArticles db tenantId now =
      (db.articleRows.filter fun row ↦
        row.tenantId = tenantId ∧ row.deletedAt = none ∧ now ≤ row.createdAt + minutes 1440).reverse := by
    refine take_of_length_le ?_
    rw [recentRawArticles, length_take] at hlimit
    exact ((min_lt_iff.mp hlimit).resolve_left (lt_irrefl 200)).le
  rw [hall, mem_reverse, mem_filter, decide_eq_true_eq, mem_liveRows, and_assoc, and_assoc]

/-- The limit is not reached at the earlier call either. -/
theorem SameWindow.limit_first {added : List RawArticle} (h : SameWindow db db₁ tenantId now later)
    (hrows : db₁.articleRows = db.articleRows ++ added) : (recentRawArticles db tenantId now).length < 200 := by
  rw [length_recentRawArticles_lt_iff]
  refine lt_of_le_of_lt ?_ (length_recentRawArticles_lt_iff.mp h.limit)
  rw [Database.liveRows, Database.liveRows, hrows, filter_append, countP_append]
  refine le_trans (countP_mono_left fun row hrow hrecent ↦ ?_) (Nat.le_add_right _ _)
  exact decide_eq_true (h.kept row hrow (of_decide_eq_true hrecent))

/-! ### One batch and two -/

/-- The new articles of the second part and those of the first differ in every key and in their words. -/
def BatchesApart (p : Platform) (source : Source) (sourceId fetchRunId : ℕ) (db : Database) (now : Time)
    (xs ys : List FetchedArticle) : Prop :=
  let adapter := p.getSourceAdapter sourceId source
  let new := FirstNew p adapter db source.tenantId now
  ∀ x y, new xs x → new ys y → (∀ other, new xs other → p.contentHash other ≠ p.contentHash y) →
    ¬ (rawArticle p adapter source sourceId fetchRunId now x).StandsFor p adapter y

/-- Nothing but the words of a recent row keeps the article from being stored. -/
def LeftOutForWords (p : Platform) (adapter : SourceAdapter) (db : Database) (tenantId : String) (now : Time)
    (article : FetchedArticle) : Prop :=
  (∀ row ∈ db.liveRows tenantId, ¬ row.MatchesKeys (dedupeKeys p adapter article)) ∧
    (∃ row ∈ recentRawArticles db tenantId now, SharesWords p article row) ∧
    p.contentHash article ∉ db.takenHashes tenantId

variable {xs ys added : List FetchedArticle}

theorem mem_liveRows_next
    (hrows : db₁.articleRows = db.articleRows ++ added.map (rawArticle p adapter source sourceId fetchRunId now)) :
    row ∈ db₁.liveRows source.tenantId ↔ row ∈ db.liveRows source.tenantId ∨
      ∃ x ∈ added, rawArticle p adapter source sourceId fetchRunId now x = row := by
  rw [mem_liveRows, mem_liveRows, hrows, mem_append, mem_map, or_and_right]
  refine or_congr_right (and_iff_left_of_imp ?_)
  rintro ⟨x, -, rfl⟩
  exact ⟨rfl, rfl⟩

theorem mem_takenHashes_next
    (hrows : db₁.articleRows = db.articleRows ++ added.map (rawArticle p adapter source sourceId fetchRunId now)) :
    hash ∈ db₁.takenHashes source.tenantId ↔
      hash ∈ db.takenHashes source.tenantId ++ added.map p.contentHash := by
  rw [mem_takenHashes, mem_append, mem_takenHashes, hrows]
  simp only [mem_append, or_and_right, exists_or, mem_map]
  refine or_congr_right ⟨?_, ?_⟩
  · rintro ⟨_, ⟨x, hx, rfl⟩, -, hhash⟩
    exact ⟨x, hx, hhash⟩
  · rintro ⟨x, hx, hhash⟩
    exact ⟨_, ⟨x, hx, rfl⟩, rfl, hhash⟩

/-- In the same window an article is recognised again, or one that the first call has stored stands for it. -/
theorem recognized_next_iff
    (hrows : db₁.articleRows = db.articleRows ++ added.map (rawArticle p adapter source sourceId fetchRunId now))
    (hwindow : SameWindow db db₁ source.tenantId now later) (hkeys : adapter'.dedupeKey = adapter.dedupeKey) :
    Recognized p adapter' db₁ source.tenantId later y ↔ Recognized p adapter db source.tenantId now y ∨
      ∃ x ∈ added, (rawArticle p adapter source sourceId fetchRunId now x).StandsFor p adapter y := by
  simp only [Recognized, RawArticle.StandsFor, dedupeKeys_congr hkeys, mem_recentRawArticles hwindow.limit,
    mem_recentRawArticles (hwindow.limit_first hrows), mem_liveRows_next hrows]
  constructor
  · rintro (⟨row, hrow | ⟨x, hx, rfl⟩, hmatch⟩ | ⟨row, ⟨hrow | ⟨x, hx, rfl⟩, hrecent⟩, hwords⟩)
    · exact .inl (.inl ⟨row, hrow, hmatch⟩)
    · exact .inr ⟨x, hx, .inl hmatch⟩
    · exact .inl (.inr ⟨row, ⟨hrow, hwindow.le.trans hrecent⟩, hwords⟩)
    · exact .inr ⟨x, hx, .inr hwords⟩
  · rintro ((⟨row, hrow, hmatch⟩ | ⟨row, ⟨hrow, hrecent⟩, hwords⟩) | ⟨x, hx, hmatch | hwords⟩)
    · exact .inl ⟨row, .inl hrow, hmatch⟩
    · exact .inr ⟨row, ⟨.inl hrow, hwindow.kept row hrow hrecent⟩, hwords⟩
    · exact .inl ⟨_, .inr ⟨x, hx, rfl⟩, hmatch⟩
    · exact .inr ⟨_, ⟨.inr ⟨x, hx, rfl⟩, hwindow.opened⟩, hwords⟩

theorem newArticles_next
    (hrows : db₁.articleRows = db.articleRows ++ added.map (rawArticle p adapter source sourceId fetchRunId now))
    (hwindow : SameWindow db db₁ source.tenantId now later) (hkeys : adapter'.dedupeKey = adapter.dedupeKey) :
    newArticles p adapter' db₁ source.tenantId later ys =
      firstOf p.contentHash (db.takenHashes source.tenantId ++ added.map p.contentHash)
        ((ys.filter fun y ↦ ¬ Recognized p adapter db source.tenantId now y).filter fun y ↦
          ¬ ∃ x ∈ added, (rawArticle p adapter source sourceId fetchRunId now x).StandsFor p adapter y) := by
  rw [newArticles, firstOf_congr fun hash ↦ mem_takenHashes_next hrows, filter_filter]
  refine congrArg (firstOf _ _) (filter_congr fun y _ ↦ ?_)
  rw [← Bool.decide_and, decide_eq_decide, recognized_next_iff hrows hwindow hkeys, not_or, and_comm]

/-- What one batch of both parts adds. -/
theorem newArticles_append :
    newArticles p adapter db tenantId now (xs ++ ys) =
      newArticles p adapter db tenantId now xs ++
        firstOf p.contentHash
          (db.takenHashes tenantId ++ (newArticles p adapter db tenantId now xs).map p.contentHash)
          (ys.filter fun y ↦ ¬ Recognized p adapter db tenantId now y) := by
  rw [newArticles, filter_append, firstOf_append]
  rfl

variable {run₁ run₂ run₃ run : ℕ} {again polledAt polledAt₁ polledAt₂ polledAt₃ : Time}
  {live live₁ live₂ live₃ : Bool} {result result₁ result₂ result₃ : IngestionTriggerResponse × List ℕ}
  {source₂ source₃ : Source}

theorem batchesApart_iff :
    BatchesApart p source sourceId run₁ db now xs ys ↔
      ∀ y ∈ firstOf p.contentHash
          (db.takenHashes source.tenantId ++
            (newArticles p (p.getSourceAdapter sourceId source) db source.tenantId now xs).map p.contentHash)
          (ys.filter fun y ↦ ¬ Recognized p (p.getSourceAdapter sourceId source) db source.tenantId now y),
        ¬ ∃ x ∈ newArticles p (p.getSourceAdapter sourceId source) db source.tenantId now xs,
          (rawArticle p (p.getSourceAdapter sourceId source) source sourceId run₁ now x).StandsFor p
            (p.getSourceAdapter sourceId source) y := by
  unfold BatchesApart
  simp only [mem_firstOf_iff, mem_append, mem_map, not_or, not_exists, not_and, mem_newArticles_iff,
    find?_filter]
  constructor
  · rintro h y ⟨⟨htaken, hother⟩, hfirst⟩ x hx
    refine h x y hx ⟨htaken, ?_⟩ fun other ↦ hother other
    simpa only [Bool.decide_and, Bool.decide_eq_true] using hfirst
  · rintro h x y hx ⟨htaken, hfirst⟩ hother
    refine h y ⟨⟨htaken, fun other ↦ hother other⟩, ?_⟩ x hx
    simpa only [Bool.decide_and, Bool.decide_eq_true] using hfirst

/-- Two batches in one window store what one stores exactly when the new articles of the second part and those
of the first are apart. -/
theorem storedContents_eq_iff (hnormal : ∀ article ∈ xs ++ ys, Normalized p article)
    (hsource : source.SameRules p sourceId source₂) (hwindow : SameWindow db db₁ source.tenantId now later)
    (hfirst : persistSuccessBody p source sourceId run₁ xs live₁ polledAt₁ now db = (.ok result₁, db₁))
    (hsecond : persistSuccessBody p source₂ sourceId run₂ ys live₂ polledAt₂ later db₁ = (.ok result₂, db₂))
    (hboth : persistSuccessBody p source sourceId run (xs ++ ys) live polledAt now db = (.ok result, db')) :
    db'.storedContents = db₂.storedContents ↔ BatchesApart p source sourceId run₁ db now xs ys := by
  have hrows₁ := articleRows_persistSuccessBody
    (fun article harticle ↦ hnormal article (mem_append_left ys harticle)) hfirst
  have hrows₂ := articleRows_persistSuccessBody
    (fun article harticle ↦ hnormal article (mem_append_right xs harticle)) hsecond
  rw [hsource.tenantId, newArticles_next hrows₁ hwindow hsource.dedupeKey] at hrows₂
  have hrows := articleRows_persistSuccessBody hnormal hboth
  rw [newArticles_append] at hrows
  rw [batchesApart_iff]
  set adapter := p.getSourceAdapter sourceId source
  set new := newArticles p adapter db source.tenantId now xs
  set taken := db.takenHashes source.tenantId ++ new.map p.contentHash
  set candidates := ys.filter fun y ↦ ¬ Recognized p adapter db source.tenantId now y
  constructor
  · -- a new article of the second part has its content in the table, under a hash that only it can have
    intro hsame y hy
    obtain ⟨row, hrow, hcontent⟩ : (rawArticle p adapter source sourceId run now y).content ∈ db₂.storedContents :=
      hsame ▸ ⟨_, hrows ▸ mem_append_right _ (mem_map_of_mem (mem_append_right _ hy)), rfl⟩
    have hhash : row.contentHash = p.contentHash y := congrArg RawArticle.contentHash hcontent
    have htenant : row.tenantId = source.tenantId := congrArg RawArticle.tenantId hcontent
    have hnew := (mem_firstOf_iff.mp hy).1
    rw [hrows₂, mem_append] at hrow
    rcases hrow with hrow | hrow
    · refine absurd ?_ hnew
      rw [← mem_takenHashes_next hrows₁]
      exact mem_takenHashes.mpr ⟨row, hrow, htenant, hhash⟩
    · obtain ⟨y', hy', rfl⟩ := mem_map.mp hrow
      rw [content_rawArticle hsource run now] at hcontent
      have hapart := of_decide_eq_true (mem_filter.mp (mem_of_mem_firstOf hy')).2
      rintro ⟨x, hx, hstands⟩
      exact hapart ⟨x, hx, (standsFor_congr hcontent).mpr hstands⟩
  · intro hapart
    rw [(firstOf_filter_eq_iff _).mpr fun y hy ↦ decide_eq_true (hapart y hy)] at hrows₂
    refine Set.ext fun content ↦ ?_
    change (∃ row ∈ db'.articleRows, _) ↔ ∃ row ∈ db₂.articleRows, _
    rw [hrows, hrows₂, hrows₁]
    simp only [mem_append, or_and_right, exists_or, map_append, or_assoc]
    exact or_congr_right (or_congr (exists_content_iff (Source.SameRules.refl p sourceId source))
      (exists_content_iff hsource))

/-- A second ingestion of a batch stores nothing exactly when no article that only its words have left out
before is new now. -/
theorem rawArticles_again_iff (hnormal : ∀ article ∈ xs, Normalized p article)
    (hsource : source.SameRules p sourceId source₃)
    (hfirst : persistSuccessBody p source sourceId run₁ xs live₁ polledAt₁ now db = (.ok result₁, db₁))
    (hagain : persistSuccessBody p source₃ sourceId run₃ xs live₃ polledAt₃ again db₁ = (.ok result₃, db₃)) :
    db₃.rawArticles = db₁.rawArticles ↔ ∀ x ∈ xs,
      LeftOutForWords p (p.getSourceAdapter sourceId source) db source.tenantId now x →
        Recognized p (p.getSourceAdapter sourceId source₃) db₁ source.tenantId again x := by
  have hrows := articleRows_persistSuccessBody hnormal hfirst
  rw [rawArticles_eq_iff hnormal hagain, hsource.tenantId]
  refine forall₂_congr fun x hx ↦ ?_
  rw [mem_takenHashes_next hrows, mem_append]
  constructor
  · rintro (hknown | htaken | hadded) ⟨-, -, hfree⟩
    · exact hknown
    · exact absurd htaken hfree
    · -- the first of its hash has been stored, and its row has the hash
      obtain ⟨x', hx', hhash⟩ := mem_map.mp hadded
      exact .inl ⟨_, (mem_liveRows_next hrows).mpr (.inr ⟨x', hx', rfl⟩), .inl hhash⟩
  · intro hwords
    by_cases hmatch : ∃ row ∈ db.liveRows source.tenantId,
        row.MatchesKeys (dedupeKeys p (p.getSourceAdapter sourceId source) x)
    · obtain ⟨row, hrow, hmatch⟩ := hmatch
      rw [← dedupeKeys_congr hsource.dedupeKey] at hmatch
      exact .inl (.inl ⟨row, (mem_liveRows_next hrows).mpr (.inl hrow), hmatch⟩)
    · by_cases hfree : p.contentHash x ∈ db.takenHashes source.tenantId
      · exact .inr (.inl hfree)
      · by_cases hrecent : ∃ row ∈ recentRawArticles db source.tenantId now, SharesWords p x row
        · exact .inl (hwords ⟨fun row hrow hkeys ↦ hmatch ⟨row, hrow, hkeys⟩, hrecent, hfree⟩)
        · have hnew : x ∈ xs.filter fun x ↦
              ¬ Recognized p (p.getSourceAdapter sourceId source) db source.tenantId now x :=
            mem_filter.mpr ⟨hx, decide_eq_true (not_or.mpr ⟨hmatch, hrecent⟩)⟩
          obtain ⟨x', hx', hhash⟩ := (mem_taken_or_kept hnew).resolve_left hfree
          exact .inr (.inr (mem_map.mpr ⟨x', hx', hhash⟩))

/-- Storing articles does not depend on their batches exactly when the new ones of the second part and those of
the first are apart, and storing them again adds nothing exactly when those left out for their words are
recognised again. -/
theorem batching_iff (hnormal : ∀ article ∈ xs ++ ys, Normalized p article)
    (hsource₂ : source.SameRules p sourceId source₂) (hsource₃ : source.SameRules p sourceId source₃)
    (hwindow : SameWindow db db₁ source.tenantId now later)
    (hfirst : persistSuccessBody p source sourceId run₁ xs live₁ polledAt₁ now db = (.ok result₁, db₁))
    (hsecond : persistSuccessBody p source₂ sourceId run₂ ys live₂ polledAt₂ later db₁ = (.ok result₂, db₂))
    (hboth : persistSuccessBody p source sourceId run (xs ++ ys) live polledAt now db = (.ok result, db'))
    (hagain : persistSuccessBody p source₃ sourceId run₃ xs live₃ polledAt₃ again db₁ = (.ok result₃, db₃)) :
    (db'.storedContents = db₂.storedContents ↔ BatchesApart p source sourceId run₁ db now xs ys) ∧
      (db₃.rawArticles = db₁.rawArticles ↔ ∀ x ∈ xs,
        LeftOutForWords p (p.getSourceAdapter sourceId source) db source.tenantId now x →
          Recognized p (p.getSourceAdapter sourceId source₃) db₁ source.tenantId again x) :=
  ⟨storedContents_eq_iff hnormal hsource₂ hwindow hfirst hsecond hboth,
    rawArticles_again_iff (fun article harticle ↦ hnormal article (mem_append_left ys harticle)) hsource₃
      hfirst hagain⟩

/-! ### Two articles of one page -/

/-- Connectors whose digests are the texts they are taken of, and a database that takes every row. -/
def pagePlatform : Platform where
  getSourceAdapter _ _ :=
    { connectorName := "rss", rateLimitPolicy := .null, sourceMetadata := .null
      dedupeKey := fun article ↦ article.canonicalUrl ++ article.title }
  normalizeTitle := id
  contentHash article := article.canonicalUrl ++ article.title ++ (article.body.or article.summary).getD ""
  tokenizeForSimilarity text :=
    ((text.toList.splitOn ' ').filter fun token ↦ 2 < token.length).map String.ofList
  storable _ := true
  disableAfterFailures := 5

def feedSource : Source := { tenantId := "t1", name := "Feed" }

/-- An article of a live page whose headline has changed. -/
def stormArticle : FetchedArticle :=
  { url := "https://feed/live", canonicalUrl := "https://feed/live", title := "storm warning issued" }

/-- The same page later. -/
def marketArticle : FetchedArticle := { stormArticle with title := "markets close higher" }

def chessArticle : FetchedArticle :=
  { url := "https://feed/chess", canonicalUrl := "https://feed/chess", title := "open title match drawn" }

/-- The outcome of storing a batch of the source in a run. -/
def feedBatch (fetchRunId : ℕ) (articles : List FetchedArticle) (now : Time) (db : Database) :
    Except PyException (IngestionTriggerResponse × List ℕ) × Database :=
  persistSuccessBody pagePlatform feedSource 1 fetchRunId articles true now now db

theorem feedBatch_ok (fetchRunId : ℕ) (articles : List FetchedArticle) (now : Time) (db : Database) :
    ∃ result, persistSuccessBody pagePlatform feedSource 1 fetchRunId articles true now now db =
      (.ok result, (feedBatch fetchRunId articles now db).2) := by
  obtain ⟨result, db', inserted, h, -⟩ := persistSuccessBody_of_storable true now
    (all_eq_true.mpr fun _ _ ↦ rfl :
      Storable pagePlatform db feedSource 1 fetchRunId now articles)
  exact ⟨result, h.trans (ext rfl (congrArg snd h).symm)⟩

/-- Every article of the batches has a URL. -/
theorem normalized_of_url
    (h : (articles.all fun article ↦ article.canonicalUrl ≠ "" ∧ pagePlatform.contentHash article ≠ "") = true) :
    ∀ article ∈ articles, Normalized pagePlatform article := by
  intro article harticle
  have hboth := all_eq_true.mp h article harticle
  rwa [decide_eq_true_eq] at hboth

/-- A call ten minutes after the first one that a new tenant makes. -/
theorem sameWindow_feedBatch
    (h : (recentRawArticles (feedBatch 1 articles (minutes 10) {}).2 "t1" (minutes 20)).length < 200) :
    SameWindow {} (feedBatch 1 articles (minutes 10) {}).2 feedSource.tenantId (minutes 10) (minutes 20) where
  opened := by decide
  kept := fun row hrow ↦ absurd (mem_liveRows.mp hrow).1 not_mem_nil
  le := by decide
  limit := h

/-- Articles of two pages are stored alike in one batch and in two, and once. -/
theorem two_pages_stored_alike :
    (feedBatch 1 ([stormArticle] ++ [chessArticle]) (minutes 10) {}).2.storedContents =
        (feedBatch 2 [chessArticle] (minutes 20)
          (feedBatch 1 [stormArticle] (minutes 10) {}).2).2.storedContents ∧
      (feedBatch 3 [stormArticle] (minutes 30) (feedBatch 1 [stormArticle] (minutes 10) {}).2).2.rawArticles =
        (feedBatch 1 [stormArticle] (minutes 10) {}).2.rawArticles := by
  obtain ⟨result₁, hfirst⟩ := feedBatch_ok 1 [stormArticle] (minutes 10) {}
  obtain ⟨result₂, hsecond⟩ := feedBatch_ok 2 [chessArticle] (minutes 20) (feedBatch 1 [stormArticle] (minutes 10) {}).2
  obtain ⟨result, hboth⟩ := feedBatch_ok 1 ([stormArticle] ++ [chessArticle]) (minutes 10) {}
  obtain ⟨result₃, hagain⟩ := feedBatch_ok 3 [stormArticle] (minutes 30) (feedBatch 1 [stormArticle] (minutes 10) {}).2
  have hiff := batching_iff (normalized_of_url (by decide +kernel)) (Source.SameRules.refl _ _ _)
    (Source.SameRules.refl _ _ _) (sameWindow_feedBatch (by decide +kernel)) hfirst hsecond hboth hagain
  refine ⟨hiff.1.mpr ?_, hiff.2.mpr ?_⟩
  · intro x y hx hy _
    obtain rfl := mem_singleton.mp (mem_of_find?_eq_some hx.2)
    obtain rfl := mem_singleton.mp (mem_of_find?_eq_some hy.2)
    decide +kernel
  · rintro x - ⟨-, ⟨row, hrow, -⟩, -⟩
    exact absurd hrow not_mem_nil

/-- One batch stores two articles of one page, two batches store the first of them. -/
theorem shared_page_stored_twice :
    ¬ ∀ (p : Platform) (source : Source) (sourceId : ℕ) (db : Database) (xs ys : List FetchedArticle)
        (now later : Time),
      (∀ article ∈ xs ++ ys, Normalized p article) →
      ((xs ++ ys).map (p.getSourceAdapter sourceId source).dedupeKey).Nodup →
      ∀ result₁ result₂ result db₁ db₂ db', SameWindow db db₁ source.tenantId now later →
        persistSuccessBody p source sourceId 1 xs true now now db = (.ok result₁, db₁) →
        persistSuccessBody p source sourceId 2 ys true later later db₁ = (.ok result₂, db₂) →
        persistSuccessBody p source sourceId 1 (xs ++ ys) true now now db = (.ok result, db') →
        db'.storedContents = db₂.storedContents ∧
          ∀ result₃ db₃, persistSuccessBody p source sourceId 3 xs true later later db₁ = (.ok result₃, db₃) →
            db₃.rawArticles = db₁.rawArticles := by
  intro h
  obtain ⟨result₁, hfirst⟩ := feedBatch_ok 1 [stormArticle] (minutes 10) {}
  obtain ⟨result₂, hsecond⟩ := feedBatch_ok 2 [marketArticle] (minutes 20) (feedBatch 1 [stormArticle] (minutes 10) {}).2
  obtain ⟨result, hboth⟩ := feedBatch_ok 1 ([stormArticle] ++ [marketArticle]) (minutes 10) {}
  have hsame := (h pagePlatform feedSource 1 {} [stormArticle] [marketArticle] (minutes 10) (minutes 20)
    (normalized_of_url (by decide +kernel)) (by decide +kernel) _ _ _ _ _ _
    (sameWindow_feedBatch (by decide +kernel)) hfirst hsecond hboth).1
  have hstored : ∃ row ∈ (feedBatch 1 ([stormArticle] ++ [marketArticle]) (minutes 10) {}).2.articleRows,
      row.title = marketArticle.title := by decide +kernel
  obtain ⟨row, hrow, htitle⟩ := hstored
  obtain ⟨row', hrow', hcontent⟩ : row.content ∈ (feedBatch 2 [marketArticle] (minutes 20)
      (feedBatch 1 [stormArticle] (minutes 10) {}).2).2.storedContents := hsame ▸ ⟨row, hrow, rfl⟩
  have hnone : ∀ row ∈ (feedBatch 2 [marketArticle] (minutes 20)
      (feedBatch 1 [stormArticle] (minutes 10) {}).2).2.articleRows, row.title ≠ marketArticle.title := by
    decide +kernel
  exact hnone row' hrow' ((congrArg RawArticle.title hcontent).trans htitle)

end ContentGenerator.SourceIngestion

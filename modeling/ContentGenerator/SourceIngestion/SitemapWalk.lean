import ContentGenerator.Lib.LevelSearch

/-!
# The sitemap walk

`extract_sitemap_urls` and `walk_sitemap_urls` (`modules/source_ingestion/sitemap_walk.py`). A batch is what
the queue holds without the visited URLs: all of it is marked visited and fetched, and the outcomes are
collected in its order until the URL cap is reached. Fetching and parsing stand as one parameter.

`walkSitemapUrls_exact_iff` compares the walk with the breadth-first search of `Lib.LevelSearch`: the pages
and the fetches are those of the search exactly when no sitemap of a depth that is reached before the cap is
linked twice from the depth above. A batch is compared with the visited URLs before it is marked, never with
itself: `diamond_fetched_twice`.
-/

namespace ContentGenerator.SourceIngestion

open Lib List LevelSearch
open Prod (fst)

/-! ### Sitemap documents -/

/-- `ElementTree.Element`: the tag, the text and the children. -/
inductive Element
  | node (tag : String) (text : Option String) (children : List Element)

namespace Element

def tag : Element → String
  | node tag _ _ => tag

def text : Element → Option String
  | node _ text _ => text

def children : Element → List Element
  | node _ _ children => children

mutual

/-- `element.iter()`: the element and everything below it, in document order. -/
def iter : Element → List Element
  | node tag text children => node tag text children :: iterAll children

/-- `iter` over the elements of a list. -/
def iterAll : List Element → List Element
  | [] => []
  | element :: rest => iter element ++ iterAll rest

end

def sitemapTag (name : String) : String := "{http://www.sitemaps.org/schemas/sitemap/0.9}" ++ name

/-- `root.findall(".//ns:name")`: the elements strictly below. -/
def findBelow (root : Element) (name : String) : List Element :=
  (iterAll root.children).filter (·.tag = sitemapTag name)

/-- `root.findall("ns:name")`: the children of that tag. -/
def findChildren (element : Element) (name : String) : List Element :=
  element.children.filter (·.tag = sitemapTag name)

/-- `element.findtext("ns:name")`, `none` also for the empty text. -/
def findText (element : Element) (name : String) : Option String :=
  (element.findChildren name).head?.bind fun child ↦ child.text.filter (· ≠ "")

end Element

/-- `extract_sitemap_urls`: the nested sitemaps and the pages with their time of change. `parseLastmod` is
`datetime.fromisoformat` in UTC, `none` where it raises. -/
def extractSitemapUrls (parseLastmod : String → Option Int) (root : Element) :
    List String × List (String × Option Int) :=
  let sitemapNodes := ((root.findBelow "sitemap").flatMap (·.findChildren "loc")).filterMap fun item ↦
    item.text.filter (· ≠ "")
  let urlNodes := (root.findBelow "url").filterMap fun urlNode ↦
    let lastmod := (urlNode.findText "lastmod").bind parseLastmod
    (urlNode.findText "loc").map fun loc ↦ (loc, lastmod)
  (sitemapNodes, urlNodes)

/-! ### The walk -/

/-- What the walk takes from outside: `load` fetches and parses a sitemap, `none` where one of the two
raises; `cutoff` is the start of the change window. -/
structure SitemapEnv where
  load : String → Option Element
  parseLastmod : String → Option Int
  cutoff : Int

/-- The local variables of `_walk`, with the log of what was fetched. `visited` is the set of visited
URLs, of which only membership is read. -/
structure Walk where
  collected : List String := []
  visited : List String := []
  queue : List (String × ℕ)
  fetched : List String := []
  rounds : ℕ := 0

section

variable (env : SitemapEnv) (maxDepth maxUrls : ℕ)

/-- `_process`: `none` where the sitemap fails to load. -/
def processSitemap (visited : List String) (item : String × ℕ) :
    Option (List String × List (String × ℕ)) :=
  match env.load item.1 with
  | none => none
  | some root =>
    let (nested, urlNodes) := extractSitemapUrls env.parseLastmod root
    let pageUrls := (urlNodes.filter fun node ↦ node.2.all (env.cutoff ≤ ·)).map fst
    let children := (nested.filter fun nestedUrl ↦ nestedUrl ∉ visited ∧ item.2 + 1 ≤ maxDepth).map
      fun nestedUrl ↦ (nestedUrl, item.2 + 1)
    some (pageUrls, children)

/-- The inner loop over the pages of one outcome. -/
def collectPages : List String → List String → List String
  | [], collected => collected
  | loc :: rest, collected =>
    if maxUrls ≤ collected.length then collected else collectPages rest (collected ++ [loc])

/-- The loop over the outcomes of a batch: the pages collected and the next queue. -/
def collectOutcomes : List (Option (List String × List (String × ℕ))) → List String →
    List (String × ℕ) → List String × List (String × ℕ)
  | [], collected, queue => (collected, queue)
  | none :: rest, collected, queue => collectOutcomes rest collected queue
  | some (pageUrls, children) :: rest, collected, queue =>
    let collected := collectPages maxUrls pageUrls collected
    if maxUrls ≤ collected.length then (collected, queue)
    else collectOutcomes rest collected (queue ++ children)

/-- One round of the `while` loop; `none` where the loop ends. -/
def walkRound (walk : Walk) : Option Walk :=
  if walk.queue.isEmpty || maxUrls ≤ walk.collected.length then none
  else
    let batch := walk.queue.filter fun item ↦ item.1 ∉ walk.visited ∧ item.2 ≤ maxDepth
    if batch.isEmpty then none
    else
      let visited := walk.visited ++ batch.map fst
      let outcomes := batch.map (processSitemap env maxDepth visited)
      let (collected, queue) := collectOutcomes maxUrls outcomes walk.collected []
      some ⟨collected, visited, queue, walk.fetched ++ batch.map fst, walk.rounds + 1⟩

/-- The `while` loop, given up after a number of rounds. -/
def walkLoop : ℕ → Walk → Option Walk
  | 0, _ => none
  | fuel + 1, walk =>
    match walkRound env maxDepth maxUrls walk with
    | none => some walk
    | some next => walkLoop fuel next

/-- `walk_sitemap_urls`, with the variables at the end. -/
def walkSitemapUrls (rootUrl : String) (fuel : ℕ) : Option Walk :=
  walkLoop env maxDepth maxUrls fuel { queue := [(rootUrl, 0)] }

/-! ### The graph of the sitemaps -/

def sitemapLinks (url : String) : List String :=
  ((env.load url).map fun root ↦ (extractSitemapUrls env.parseLastmod root).1).getD []

def sitemapPages (url : String) : List String :=
  ((env.load url).map fun root ↦ (((extractSitemapUrls env.parseLastmod root).2.filter fun node ↦
    node.2.all (env.cutoff ≤ ·)).map fst)).getD []

/-- The recent pages of the sitemaps at a distance below `n`, in breadth-first order. -/
def pagesBefore (rootUrl : String) (n : ℕ) : List String :=
  (before (sitemapLinks env) rootUrl n).flatMap (sitemapPages env)

/-- What the loop over the outcomes reads from one item of a batch. -/
def itemChildren (visited : List String) (item : String × ℕ) : List (String × ℕ) :=
  ((sitemapLinks env item.1).filter fun nestedUrl ↦ nestedUrl ∉ visited ∧ item.2 + 1 ≤ maxDepth).map
    fun nestedUrl ↦ (nestedUrl, item.2 + 1)

end

variable {env : SitemapEnv} {maxDepth maxUrls : ℕ} {rootUrl : String}

/-! ### One round -/

theorem collectPages_eq (pages : List String) {collected : List String} (h : collected.length ≤ maxUrls) :
    collectPages maxUrls pages collected = (collected ++ pages).take maxUrls := by
  induction pages generalizing collected with
  | nil => rw [collectPages, append_nil, take_of_length_le h]
  | cons loc rest ih =>
    unfold collectPages
    split_ifs with hfull
    · rw [take_append_of_le_length hfull, take_of_length_le h]
    · have hlength : (collected ++ [loc]).length ≤ maxUrls := by
        rw [length_append, length_singleton]
        omega
      rw [ih hlength, append_assoc, singleton_append]

theorem processSitemap_none {url : String} (h : env.load url = none) (maxDepth : ℕ) (visited : List String)
    (depth : ℕ) :
    processSitemap env maxDepth visited (url, depth) = none ∧ sitemapPages env url = [] ∧
      itemChildren env maxDepth visited (url, depth) = [] := by
  refine ⟨by rw [processSitemap, h], by rw [sitemapPages, h]; rfl, ?_⟩
  rw [itemChildren, sitemapLinks, h]
  rfl

theorem processSitemap_some {url : String} {root : Element} (h : env.load url = some root)
    (visited : List String) (depth : ℕ) :
    processSitemap env maxDepth visited (url, depth) =
      some (sitemapPages env url, itemChildren env maxDepth visited (url, depth)) := by
  rw [processSitemap, sitemapPages, itemChildren, sitemapLinks, h]
  rfl

/-- What the loop over the outcomes of a batch collects: the pages up to the cap, and the children of
the batch as long as the cap is not reached. -/
theorem collectOutcomes_batch (env : SitemapEnv) (maxDepth : ℕ) (visited : List String)
    (batch : List (String × ℕ)) {collected : List String} {queue : List (String × ℕ)} (h : collected.length ≤ maxUrls)
    {outcome : List String × List (String × ℕ)}
    (houtcome : collectOutcomes maxUrls (batch.map (processSitemap env maxDepth visited)) collected queue =
      outcome) :
    outcome.1 = (collected ++ batch.flatMap fun item ↦ sitemapPages env item.1).take maxUrls ∧
      outcome.2 <+: queue ++ batch.flatMap (itemChildren env maxDepth visited) ∧
      ((collected ++ batch.flatMap fun item ↦ sitemapPages env item.1).length < maxUrls →
        outcome.2 = queue ++ batch.flatMap (itemChildren env maxDepth visited)) := by
  induction batch generalizing collected queue with
  | nil =>
    rw [map_nil, collectOutcomes] at houtcome
    subst houtcome
    simp only [flatMap_nil, append_nil]
    exact ⟨(take_of_length_le h).symm, prefix_rfl, fun _ ↦ trivial⟩
  | cons item rest ih =>
    obtain ⟨url, depth⟩ := item
    rw [map_cons] at houtcome
    simp only [flatMap_cons]
    cases hload : env.load url with
    | none =>
      obtain ⟨hprocess, hpages, hchildren⟩ := processSitemap_none hload maxDepth visited depth
      rw [hprocess, collectOutcomes] at houtcome
      rw [hpages, hchildren, nil_append, nil_append]
      exact ih h houtcome
    | some root =>
      rw [processSitemap_some hload, collectOutcomes, collectPages_eq _ h, length_take] at houtcome
      by_cases hfull : maxUrls ≤ min maxUrls (collected ++ sitemapPages env url).length
      · -- the cap is reached within the pages of this sitemap
        rw [if_pos hfull] at houtcome
        subst houtcome
        have hle : maxUrls ≤ (collected ++ sitemapPages env url).length := (Nat.le_min.mp hfull).2
        refine ⟨?_, prefix_append _ _, fun hshort ↦ ?_⟩
        · rw [← append_assoc]
          exact (take_append_of_le_length hle).symm
        · rw [← append_assoc, length_append] at hshort
          omega
      · have hlength : (collected ++ sitemapPages env url).length ≤ maxUrls := by omega
        rw [if_neg hfull, take_of_length_le hlength] at houtcome
        have hrest := ih hlength houtcome
        simp only [append_assoc] at hrest ⊢
        exact hrest

variable {last next walk : Walk} {fuel level : ℕ}

/-- What one round does: there is something in the queue, the cap is not reached, and the batch is what the
queue holds without the visited URLs. -/
theorem walkRound_cases (h : walkRound env maxDepth maxUrls walk = some next) :
    ∃ batch, batch = walk.queue.filter (fun item ↦ item.1 ∉ walk.visited ∧ item.2 ≤ maxDepth) ∧
      batch ≠ [] ∧ walk.collected.length < maxUrls ∧ next.visited = walk.visited ++ batch.map fst ∧
      next.fetched = walk.fetched ++ batch.map fst ∧ next.rounds = walk.rounds + 1 ∧
      next.collected = (walk.collected ++ batch.flatMap fun item ↦ sitemapPages env item.1).take maxUrls ∧
      next.queue <+: batch.flatMap (itemChildren env maxDepth next.visited) ∧
      ((walk.collected ++ batch.flatMap fun item ↦ sitemapPages env item.1).length < maxUrls →
        next.queue = batch.flatMap (itemChildren env maxDepth next.visited)) := by
  unfold walkRound at h
  split at h
  · cases h
  · rename_i hgo
    dsimp only at h
    split at h
    · cases h
    · rename_i hbatch
      simp only [Bool.or_eq_true, not_or, decide_eq_true_eq, Nat.not_le] at hgo
      cases h
      obtain ⟨hcollected, hinitial, hqueue⟩ := collectOutcomes_batch env maxDepth _ _
        (Nat.le_of_lt hgo.2) rfl
      refine ⟨_, rfl, fun hnil ↦ hbatch ?_, hgo.2, rfl, rfl, rfl, hcollected, hinitial, hqueue⟩
      rw [hnil]
      rfl

theorem walkRound_eq_none (h : walkRound env maxDepth maxUrls walk = none) :
    maxUrls ≤ walk.collected.length ∨
      walk.queue.filter (fun item ↦ item.1 ∉ walk.visited ∧ item.2 ≤ maxDepth) = [] := by
  unfold walkRound at h
  split at h
  · rename_i hstop
    simp only [Bool.or_eq_true, decide_eq_true_eq, List.isEmpty_iff] at hstop
    rcases hstop with hqueue | hcap
    · right
      rw [hqueue, filter_nil]
    · exact .inl hcap
  · dsimp only at h
    split at h
    · rename_i hbatch
      exact .inr (List.isEmpty_iff.mp hbatch)
    · cases h

/-! ### The bound -/

/-- After `round` rounds the queue holds sitemaps of that distance, and what was fetched is within the
depth. -/
structure Walk.Within (env : SitemapEnv) (maxDepth : ℕ) (rootUrl : String) (round : ℕ) (walk : Walk) :
    Prop where
  rounds : walk.rounds = round
  le : round ≤ maxDepth + 1
  queue : ∀ item ∈ walk.queue, item.2 = round ∧ round ≤ maxDepth ∧
    LevelSearch.Path (sitemapLinks env) rootUrl round item.1
  fetched : ∀ url ∈ walk.fetched, ∃ distance ≤ maxDepth, LevelSearch.Path (sitemapLinks env) rootUrl distance url

theorem Walk.within_start : Walk.Within env maxDepth rootUrl 0 { queue := [(rootUrl, 0)] } where
  rounds := rfl
  le := Nat.zero_le _
  queue := by
    intro item hitem
    obtain rfl := mem_singleton.mp hitem
    exact ⟨rfl, Nat.zero_le _, .root⟩
  fetched := by simp

theorem Walk.Within.round {round : ℕ} (h : walk.Within env maxDepth rootUrl round)
    (hnext : walkRound env maxDepth maxUrls walk = some next) :
    next.Within env maxDepth rootUrl (round + 1) := by
  obtain ⟨batch, hbatch, hne, -, -, hfetched, hrounds, -, hinitial, -⟩ := walkRound_cases hnext
  have hqueue : ∀ item ∈ batch, item.2 = round ∧ round ≤ maxDepth ∧
      LevelSearch.Path (sitemapLinks env) rootUrl round item.1 :=
    fun item hitem ↦ h.queue item (mem_of_mem_filter (hbatch ▸ hitem))
  obtain ⟨first, hfirst⟩ := exists_mem_of_ne_nil batch hne
  have hround : round ≤ maxDepth := (hqueue first hfirst).2.1
  refine ⟨by rw [hrounds, h.rounds], Nat.succ_le_succ hround, fun item hitem ↦ ?_, fun url hurl ↦ ?_⟩
  · obtain ⟨parent, hparent, hchild⟩ := mem_flatMap.mp (hinitial.subset hitem)
    obtain ⟨hdepth, -, hpath⟩ := hqueue parent hparent
    obtain ⟨nestedUrl, hnested, rfl⟩ := mem_map.mp hchild
    obtain ⟨hlink, hkeep⟩ := mem_filter.mp hnested
    have hle : parent.2 + 1 ≤ maxDepth := (of_decide_eq_true hkeep).2
    rw [hdepth] at hle
    exact ⟨by rw [hdepth], hle, .step hpath hlink⟩
  · rw [hfetched, mem_append] at hurl
    rcases hurl with hold | hnew
    · exact h.fetched url hold
    · obtain ⟨item, hitem, rfl⟩ := mem_map.mp hnew
      exact ⟨round, hround, (hqueue item hitem).2.2⟩

/-- Past the depth the loop ends, so that many rounds suffice. -/
theorem Walk.Within.loop {round : ℕ} (h : walk.Within env maxDepth rootUrl round)
    (hfuel : maxDepth + 1 < fuel + round) :
    ∃ last, walkLoop env maxDepth maxUrls fuel walk = some last ∧
      ∃ count, last.Within env maxDepth rootUrl count := by
  induction fuel generalizing round walk with
  | zero =>
    have := h.le
    omega
  | succ fuel ih =>
    unfold walkLoop
    cases hnext : walkRound env maxDepth maxUrls walk with
    | none => exact ⟨walk, rfl, round, h⟩
    | some next => exact ih (h.round hnext) (by omega)

theorem walkLoop_mono {more : ℕ} (hle : fuel ≤ more) (h : walkLoop env maxDepth maxUrls fuel walk = some last) :
    walkLoop env maxDepth maxUrls more walk = some last := by
  induction fuel generalizing more walk with
  | zero => cases h
  | succ fuel ih =>
    obtain ⟨more, rfl⟩ : ∃ m, more = m + 1 := ⟨more - 1, by omega⟩
    unfold walkLoop at h ⊢
    cases hnext : walkRound env maxDepth maxUrls walk with
    | none => rwa [hnext] at h
    | some next =>
      rw [hnext] at h
      exact ih (Nat.le_of_succ_le_succ hle) h

/-! ### The breadth-first order -/

theorem pagesBefore_mono (env : SitemapEnv) (rootUrl : String) {m n : ℕ} (h : m ≤ n) :
    pagesBefore env rootUrl m <+: pagesBefore env rootUrl n := by
  obtain ⟨later, hlater⟩ := before_prefix_of_le (sitemapLinks env) rootUrl h
  unfold pagesBefore
  rw [← hlater, flatMap_append]
  exact prefix_append _ _

/-- The walk is the search so far: it has met the levels below `level`, each once, and unless the cap is
reached the queue is the front. -/
structure Walk.AtLevel (env : SitemapEnv) (maxDepth maxUrls : ℕ) (rootUrl : String) (level : ℕ)
    (walk : Walk) : Prop where
  visited : walk.visited = before (sitemapLinks env) rootUrl level
  fetched : walk.fetched = before (sitemapLinks env) rootUrl level
  collected : walk.collected = (pagesBefore env rootUrl level).take maxUrls
  queue : (pagesBefore env rootUrl level).length < maxUrls → level ≤ maxDepth →
    walk.queue = (front (sitemapLinks env) rootUrl level).map fun url ↦ (url, level)

theorem Walk.atLevel_start : Walk.AtLevel env maxDepth maxUrls rootUrl 0 { queue := [(rootUrl, 0)] } where
  visited := rfl
  fetched := rfl
  collected := take_nil.symm
  queue := fun _ _ ↦ rfl

theorem Walk.AtLevel.length_collected (h : walk.AtLevel env maxDepth maxUrls rootUrl level) :
    walk.collected.length < maxUrls ↔ (pagesBefore env rootUrl level).length < maxUrls := by
  rw [h.collected, length_take]
  omega

/-- Within the depth and the cap the batch is the front. -/
theorem Walk.AtLevel.batch (h : walk.AtLevel env maxDepth maxUrls rootUrl level)
    (hshort : (pagesBefore env rootUrl level).length < maxUrls) (hlevel : level ≤ maxDepth) :
    walk.queue.filter (fun item ↦ item.1 ∉ walk.visited ∧ item.2 ≤ maxDepth) =
      (front (sitemapLinks env) rootUrl level).map fun url ↦ (url, level) := by
  rw [h.queue hshort hlevel, h.visited]
  refine filter_eq_self.mpr fun item hitem ↦ ?_
  obtain ⟨url, hurl, rfl⟩ := mem_map.mp hitem
  exact decide_eq_true ⟨notMem_before_of_mem_front _ _ hurl, hlevel⟩

theorem fst_tagged (urls : List String) (depth : ℕ) : (urls.map fun url ↦ (url, depth)).map fst = urls := by
  rw [map_map]
  exact map_id _

theorem itemChildren_level (visited level : List String) {depth : ℕ} (hdepth : depth + 1 ≤ maxDepth) :
    (level.map fun url ↦ (url, depth)).flatMap (itemChildren env maxDepth visited) =
      ((level.flatMap (sitemapLinks env)).filter (· ∉ visited)).map fun url ↦ (url, depth + 1) := by
  induction level with
  | nil => rfl
  | cons url rest ih =>
    rw [map_cons, flatMap_cons, ih, flatMap_cons, filter_append, map_append]
    refine congrArg (· ++ _) ?_
    unfold itemChildren
    refine congrArg (map _) (filter_congr fun nestedUrl _ ↦ ?_)
    simp [hdepth]

theorem Walk.AtLevel.round (h : walk.AtLevel env maxDepth maxUrls rootUrl level)
    (hlevel : level ≤ maxDepth) (hnodup : (front (sitemapLinks env) rootUrl level).Nodup)
    (hnext : walkRound env maxDepth maxUrls walk = some next) :
    next.AtLevel env maxDepth maxUrls rootUrl (level + 1) := by
  obtain ⟨batch, hbatch, -, hcap, hvisited, hfetched, -, hcollected, -, hqueue⟩ := walkRound_cases hnext
  have hshort := h.length_collected.mp hcap
  rw [h.batch hshort hlevel] at hbatch
  have hfst : batch.map fst = front (sitemapLinks env) rootUrl level := by
    rw [hbatch, fst_tagged]
  have hbefore : before (sitemapLinks env) rootUrl (level + 1) =
      before (sitemapLinks env) rootUrl level ++ front (sitemapLinks env) rootUrl level := by
    rw [before_succ, eraseDups_of_nodup hnodup]
  have hpages : (walk.collected ++ batch.flatMap fun item ↦ sitemapPages env item.1) =
      pagesBefore env rootUrl (level + 1) := by
    unfold pagesBefore
    rw [h.collected, take_of_length_le (Nat.le_of_lt hshort), hbefore, flatMap_append, hbatch,
      flatMap_map]
    rfl
  refine ⟨?_, ?_, ?_, fun hshort' hlevel' ↦ ?_⟩
  · rw [hvisited, hfst, h.visited, hbefore]
  · rw [hfetched, hfst, h.fetched, hbefore]
  · rw [hcollected, hpages]
  · rw [hqueue (hpages ▸ hshort'), hvisited, hfst, h.visited, ← hbefore, hbatch,
      itemChildren_level _ _ hlevel', front_succ, eraseDups_of_nodup hnodup]

/-- No sitemap at a distance up to the depth is linked twice from the distance above, as long as the
levels above it do not fill the cap. -/
def LinkedOnce (env : SitemapEnv) (maxDepth maxUrls : ℕ) (rootUrl : String) : Prop :=
  ∀ level ≤ maxDepth, (pagesBefore env rootUrl level).length < maxUrls →
    (front (sitemapLinks env) rootUrl level).Nodup

/-- Where the loop ends, what it has collected is the prefix that is asked for. -/
theorem Walk.AtLevel.stop (h : walk.AtLevel env maxDepth maxUrls rootUrl level)
    (hlevel : level ≤ maxDepth + 1) (hstop : walkRound env maxDepth maxUrls walk = none) :
    walk.collected = (pagesBefore env rootUrl (maxDepth + 1)).take maxUrls := by
  rw [h.collected]
  obtain ⟨later, hlater⟩ := pagesBefore_mono env rootUrl hlevel
  by_cases hshort : (pagesBefore env rootUrl level).length < maxUrls
  · rcases Nat.lt_or_ge maxDepth level with hpast | hwithin
    · rw [Nat.le_antisymm hlevel hpast]
    · have hempty : front (sitemapLinks env) rootUrl level = [] := by
        rcases walkRound_eq_none hstop with hcap | hbatch
        · exact absurd (h.length_collected.mpr hshort) (Nat.not_lt.mpr hcap)
        · rw [h.batch hshort hwithin] at hbatch
          exact map_eq_nil_iff.mp hbatch
      unfold pagesBefore
      rw [(before_of_front_nil _ _ hlevel hempty).1]
  · rw [← hlater, take_append_of_le_length (Nat.not_lt.mp hshort)]

/-- The exact walk: every sitemap is fetched once and the pages are the first in breadth-first order. -/
def Walk.Exact (env : SitemapEnv) (maxDepth maxUrls : ℕ) (rootUrl : String) (last : Walk) : Prop :=
  last.fetched.Nodup ∧ last.collected = (pagesBefore env rootUrl (maxDepth + 1)).take maxUrls

theorem Walk.AtLevel.exact
    (h : walk.AtLevel env maxDepth maxUrls rootUrl level) (hwithin : walk.Within env maxDepth rootUrl level)
    (honce : LinkedOnce env maxDepth maxUrls rootUrl)
    (hlast : walkLoop env maxDepth maxUrls fuel walk = some last) :
    last.Exact env maxDepth maxUrls rootUrl := by
  induction fuel generalizing level walk with
  | zero => cases hlast
  | succ fuel ih =>
    unfold walkLoop at hlast
    cases hnext : walkRound env maxDepth maxUrls walk with
    | none =>
      rw [hnext] at hlast
      cases hlast
      exact ⟨by rw [h.fetched]; exact before_nodup _ _ _, h.stop hwithin.le hnext⟩
    | some next =>
      rw [hnext] at hlast
      obtain ⟨batch, hbatch, hne, hcap, -⟩ := walkRound_cases hnext
      obtain ⟨first, hfirst⟩ := exists_mem_of_ne_nil batch hne
      have hlevel : level ≤ maxDepth := (hwithin.queue first (mem_of_mem_filter (hbatch ▸ hfirst))).2.1
      have hnodup := honce level hlevel (h.length_collected.mp hcap)
      exact ih (h.round hlevel hnodup hnext) (hwithin.round hnext) hlast

theorem walkLoop_fetched (h : walkLoop env maxDepth maxUrls fuel walk = some last) :
    walk.fetched <+: last.fetched := by
  induction fuel generalizing walk with
  | zero => cases h
  | succ fuel ih =>
    unfold walkLoop at h
    cases hnext : walkRound env maxDepth maxUrls walk with
    | none =>
      rw [hnext] at h
      cases h
      exact prefix_rfl
    | some next =>
      rw [hnext] at h
      obtain ⟨batch, -, -, -, -, hfetched, -⟩ := walkRound_cases hnext
      exact (hfetched ▸ prefix_append _ _).trans (ih h)

/-- Where a level has a repeated URL, the walk fetches it more than once. -/
theorem Walk.AtLevel.repeats {repeated : ℕ}
    (h : walk.AtLevel env maxDepth maxUrls rootUrl level) (hle : level ≤ repeated) (hrepeated : repeated ≤ maxDepth)
    (hshort : (pagesBefore env rootUrl repeated).length < maxUrls)
    (hdup : ¬ (front (sitemapLinks env) rootUrl repeated).Nodup)
    (hlast : walkLoop env maxDepth maxUrls fuel walk = some last) : ¬ last.fetched.Nodup := by
  induction fuel generalizing level walk with
  | zero => cases hlast
  | succ fuel ih =>
    have hlevel : level ≤ maxDepth := Nat.le_trans hle hrepeated
    have hshort' : (pagesBefore env rootUrl level).length < maxUrls :=
      Nat.lt_of_le_of_lt (pagesBefore_mono env rootUrl hle).length_le hshort
    have hbatch := h.batch hshort' hlevel
    unfold walkLoop at hlast
    cases hnext : walkRound env maxDepth maxUrls walk with
    | none =>
      -- the front is not empty, since it or a later one has a repeated URL
      rcases walkRound_eq_none hnext with hcap | hempty
      · exact absurd (h.length_collected.mpr hshort') (Nat.not_lt.mpr hcap)
      · rw [hbatch, map_eq_nil_iff] at hempty
        rw [(before_of_front_nil _ _ hle hempty).2] at hdup
        exact absurd nodup_nil hdup
    | some next =>
      rw [hnext] at hlast
      by_cases hnodup : (front (sitemapLinks env) rootUrl level).Nodup
      · have hlt : level < repeated := by
          refine Nat.lt_of_le_of_ne hle fun heq ↦ ?_
          rw [heq] at hnodup
          exact hdup hnodup
        exact ih (h.round hlevel hnodup hnext) hlt hlast
      · obtain ⟨batch, heq, -, -, -, hfetched, -⟩ := walkRound_cases hnext
        rw [hbatch] at heq
        intro hlastNodup
        have hnextNodup : next.fetched.Nodup := hlastNodup.sublist (walkLoop_fetched hlast).sublist
        rw [hfetched, heq, fst_tagged] at hnextNodup
        exact hnodup (nodup_append.mp hnextNodup).2.1

/-- The walk always ends within the depth; it is exact if and only if no sitemap reached before the cap is
linked twice from the depth above. -/
theorem walkSitemapUrls_exact_iff (env : SitemapEnv) (maxDepth maxUrls : ℕ) (rootUrl : String) :
    ∃ last, (∀ fuel, maxDepth + 2 ≤ fuel → walkSitemapUrls env maxDepth maxUrls rootUrl fuel = some last) ∧
      last.rounds ≤ maxDepth + 1 ∧
      (∀ url ∈ last.fetched, ∃ distance ≤ maxDepth,
        LevelSearch.Path (sitemapLinks env) rootUrl distance url) ∧
      (last.Exact env maxDepth maxUrls rootUrl ↔ LinkedOnce env maxDepth maxUrls rootUrl) := by
  have hend : ∃ last, walkSitemapUrls env maxDepth maxUrls rootUrl (maxDepth + 2) = some last ∧
      ∃ count, last.Within env maxDepth rootUrl count :=
    Walk.within_start.loop (Nat.lt_succ_self (maxDepth + 1))
  obtain ⟨last, hlast, round, hwithin⟩ := hend
  refine ⟨last, fun fuel hfuel ↦ walkLoop_mono hfuel hlast, hwithin.rounds ▸ hwithin.le, hwithin.fetched,
    fun hexact level hlevel hshort ↦ ?_, fun honce ↦ ?_⟩
  · by_contra hdup
    exact Walk.atLevel_start.repeats (Nat.zero_le level) hlevel hshort hdup hlast hexact.1
  · exact Walk.atLevel_start.exact Walk.within_start honce hlast

def sitemapDocument (links pages : List String) : Element :=
  .node "root" none
    (links.map (fun url ↦ .node (Element.sitemapTag "sitemap") none
        [.node (Element.sitemapTag "loc") (some url) []]) ++
      pages.map fun url ↦ .node (Element.sitemapTag "url") none
        [.node (Element.sitemapTag "loc") (some url) []])

/-- Two sitemaps that the root lists link to one third, which lists a page. -/
def diamondSitemaps : SitemapEnv where
  load := fun url ↦
    if url = "root" then some (sitemapDocument ["a", "b"] [])
    else if url = "a" ∨ url = "b" then some (sitemapDocument ["c"] [])
    else if url = "c" then some (sitemapDocument [] ["page"])
    else none
  parseLastmod := fun _ ↦ none
  cutoff := 0

theorem diamondSitemaps_run :
    (walkSitemapUrls diamondSitemaps 2 10 "root" 4).map (fun last ↦ (last.fetched, last.collected)) =
      some (["root", "a", "b", "c", "c"], ["page", "page"]) := by
  decide +kernel

/-- The third sitemap is fetched twice and its page is returned twice. -/
theorem diamond_fetched_twice :
    ¬ ∃ fuel last, walkSitemapUrls diamondSitemaps 2 10 "root" fuel = some last ∧
      last.Exact diamondSitemaps 2 10 "root" := by
  rintro ⟨fuel, last, hlast, hnodup, -⟩
  cases hrun : walkSitemapUrls diamondSitemaps 2 10 "root" 4 with
  | none => exact absurd (hrun ▸ diamondSitemaps_run) (by decide)
  | some known =>
    have heq : last = known := by
      have hlarge := walkLoop_mono (Nat.le_max_left fuel 4) hlast
      rw [walkLoop_mono (Nat.le_max_right fuel 4) hrun] at hlarge
      exact (Option.some.inj hlarge).symm
    have hfetched := congrArg (Option.map fst) diamondSitemaps_run
    rw [hrun, ← heq] at hfetched
    rw [show last.fetched = ["root", "a", "b", "c", "c"] from Option.some.inj hfetched] at hnodup
    exact absurd hnodup (by decide)

end ContentGenerator.SourceIngestion

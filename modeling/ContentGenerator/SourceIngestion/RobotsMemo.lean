import ContentGenerator.Lib.Memo
import ContentGenerator.Lib.PyValue

/-!
# The robots memo of an adapter

`robots_allowed` asks the robots.txt of the origin about the URL. `_robots_allowed` keeps the first answer for an
origin and gives it for every later URL of that origin, whatever its path. `SitemapSourceAdapter.fetch` asks
`_robots_allowed` for every URL in a task of its own, and the parser it then calls asks once more, with a memo that
is still empty.

Main result: `robots_memo_agrees_iff`, when calls through the memo agree with robots.txt and when the sitemap
adapter fetches exactly what is allowed. That it fetches nothing else is `allowed_of_fetches`.
-/

namespace ContentGenerator.SourceIngestion

open Lib Memo

/-- What the calls meet: scheme and netloc that `urlparse` gives (`none` when it raises), the text of the robots.txt
of an origin (`none` when it cannot be fetched), and `can_fetch` on a text and a URL. -/
structure RobotsEnv where
  urlparse : String → Option (String × String)
  robotsText : String → Option String
  canFetch : String → String → Bool

namespace RobotsEnv

variable (env : RobotsEnv)

/-- `f"{parsed.scheme}://{parsed.netloc}".lower()`. `_origin_key` computes the same from the URL of the
robots.txt. -/
def origin (url : String) : Option String :=
  (env.urlparse url).map fun parsed ↦ pyLower (parsed.1 ++ "://" ++ parsed.2)

/-- What a robots.txt says about a URL; one that cannot be fetched allows everything. -/
def verdict (url : String) : Bool :=
  match (env.origin url).bind env.robotsText with
  | none => true
  | some text => env.canFetch text url

/-- `robots_allowed`; `none` when it raises. -/
def robotsAllowed (respected : Bool) (url : String) : Option Bool :=
  if ¬ respected then some true else (env.origin url).map fun _ ↦ env.verdict url

/-- `_robots_allowed`: the answer, and `_robots_decision_cache` after it. -/
def adapterRobotsAllowed (respected : Bool) (cache : String → Option Bool) (url : String) :
    Option Bool × (String → Option Bool) :=
  match env.origin url with
  | none => (none, cache)
  | some origin =>
    match cache origin with
    | some allowed => (some allowed, cache)
    | none =>
      match env.robotsAllowed respected url with
      | none => (none, cache)
      | some allowed => (some allowed, Function.update cache origin (some allowed))

def adapterCalls (respected : Bool) : List String → (String → Option Bool) → List (Option Bool)
  | [], _ => []
  | url :: rest, cache =>
    (env.adapterRobotsAllowed respected cache url).1 ::
      adapterCalls respected rest (env.adapterRobotsAllowed respected cache url).2

/-- The tasks of `SitemapSourceAdapter.fetch` after some events: a task asks the memo, and when it knows nothing it
waits for `robots_allowed`. -/
def sitemapTasks (urls : List String) (events : List Memo.TaskEvent) : Memo.Tasks String Bool :=
  play (Memo.Tasks.step env.origin env.verdict urls) events {}

/-- The task goes on to fetch its article: the memo allows it, and so does the one of its own parser. -/
def Fetches (urls : List String) (events : List Memo.TaskEvent) (task : ℕ) (url : String) : Prop :=
  (env.sitemapTasks urls events).answer task = some (some true) ∧
    (env.adapterRobotsAllowed true (fun _ ↦ none) url).1 = some true

/-- Every call of a new adapter returns what `robots_allowed` returns for that URL. -/
def AgreesWithRobots (urls : List String) : Prop :=
  env.adapterCalls true urls (fun _ ↦ none) = urls.map (env.robotsAllowed true)

/-- In every interleaving, a task that has its answer goes on to fetch its article exactly when `robots_allowed`
allows it. -/
def FetchesAllowed (urls : List String) : Prop :=
  ∀ events task url, urls[task]? = some url → ((env.sitemapTasks urls events).answer task).isSome →
    (env.Fetches urls events task url ↔ env.robotsAllowed true url = some true)

variable {env} {urls : List String}

theorem robotsAllowed_eq_direct (url : String) :
    env.robotsAllowed true url = direct env.origin env.verdict url := rfl

theorem adapterRobotsAllowed_eq_recall (cache : String → Option Bool) (url : String) :
    env.adapterRobotsAllowed true cache url = recallOne env.origin env.verdict cache url := by
  unfold adapterRobotsAllowed recallOne robotsAllowed
  cases horigin : env.origin url with
  | none => rfl
  | some origin =>
    dsimp only
    cases cache origin <;> rfl

theorem adapterCalls_eq_recallAll (urls : List String) (cache : String → Option Bool) :
    env.adapterCalls true urls cache = recallAll env.origin env.verdict urls cache := by
  induction urls generalizing cache with
  | nil => rfl
  | cons url rest ih => rw [adapterCalls, recallAll, adapterRobotsAllowed_eq_recall, ih]

/-- A new adapter gives the verdict on its first URL. -/
theorem adapterRobotsAllowed_empty (url : String) :
    (env.adapterRobotsAllowed true (fun _ ↦ none) url).1 = env.robotsAllowed true url := by
  rw [adapterRobotsAllowed_eq_recall, robotsAllowed_eq_direct]
  unfold recallOne direct
  cases env.origin url <;> rfl

theorem allowed_of_fetches {events : List Memo.TaskEvent} {task : ℕ} {url : String}
    (h : env.Fetches urls events task url) : env.robotsAllowed true url = some true :=
  (adapterRobotsAllowed_empty url).symm.trans h.2

theorem fetchesAllowed_of_dependsOnKey (h : Memo.DependsOnKey env.origin env.verdict urls) :
    env.FetchesAllowed urls := by
  intro events task url hurl hanswered
  refine ⟨allowed_of_fetches, fun hallowed ↦ ⟨?_, (adapterRobotsAllowed_empty url).trans hallowed⟩⟩
  obtain ⟨result, hresult⟩ := Option.isSome_iff_exists.mp hanswered
  have hdirect := Memo.Tasks.answers_direct h events hurl hresult
  rw [hresult, hdirect, ← robotsAllowed_eq_direct, hallowed]

/-- Calls through the memo agree with robots.txt, and a sitemap adapter fetches exactly what is allowed, if and only
if the URLs of one origin have one verdict. -/
theorem robots_memo_agrees_iff (env : RobotsEnv) (urls : List String) :
    env.AgreesWithRobots urls ∧ env.FetchesAllowed urls ↔
      ∀ url ∈ urls, ∀ other ∈ urls, env.origin url = env.origin other →
        env.robotsAllowed true url = env.robotsAllowed true other := by
  have hagrees : env.AgreesWithRobots urls ↔ Memo.DependsOnKey env.origin env.verdict urls := by
    unfold AgreesWithRobots
    rw [adapterCalls_eq_recallAll]
    exact recallAll_eq_iff urls
  rw [hagrees]
  exact and_iff_left_of_imp fetchesAllowed_of_dependsOnKey

end RobotsEnv

/-! ### Two paths of one origin -/

/-- A robots.txt that disallows what is under `/private`, for URLs of one origin. -/
def privatePathEnv : RobotsEnv where
  urlparse := fun _ ↦ some ("https", "news.example")
  robotsText := fun _ ↦ some "User-agent: *\nDisallow: /private"
  canFetch := fun _ url ↦ ¬ pyStartsWith "https://news.example/private" url

def privateThenPublic : List String := ["https://news.example/private/draft", "https://news.example/story"]

/-- The answer for the private page is given for the public one, which the sitemap adapter then drops. -/
theorem public_page_refused :
    ¬ privatePathEnv.AgreesWithRobots privateThenPublic ∧ ¬ privatePathEnv.FetchesAllowed privateThenPublic := by
  refine ⟨by unfold RobotsEnv.AgreesWithRobots; decide +kernel, fun hfetches ↦ ?_⟩
  have hdecided := hfetches [.looks 0, .gets 0, .looks 1] 1 "https://news.example/story" rfl (by decide +kernel)
  have hdropped : (privatePathEnv.sitemapTasks privateThenPublic [.looks 0, .gets 0, .looks 1]).answer 1 =
      some (some false) := by decide +kernel
  have hallowed := (hdecided.mpr (by decide +kernel)).1
  rw [hdropped] at hallowed
  exact absurd hallowed (by decide)

end ContentGenerator.SourceIngestion

import ContentGenerator.Lib.Play
import ContentGenerator.Lib.PyValue

/-!
# The requests of `apiFetch`

`apiFetch` of the frontend (`api/client.ts`): its request, the second one after an expired session or a
network error, and the refresh that concurrent calls share. The network and the server are the events of a
run: a request leaves (`transmit`), the server handles it whenever it arrives (`serve`), its answer or that of
a gateway reaches the client (`respond`), or `fetch` rejects (`reject`), also when the server has handled it.

`apiFetch_sentOnce`: a call none of whose requests is lost after it has left is processed at most once.
`lost_answer_is_sent_again` is the run of a lost answer.
-/

namespace ContentGenerator.Frontend

open Lib List

variable {id status : ℕ} {timedOut : Bool}

/-! ### Errors -/

inductive ApiErrorCode
  | timeout
  | aborted
  | http
  | network
  deriving DecidableEq

structure ApiRequestError where
  message : String
  code : ApiErrorCode
  retryable : Bool
  status : Option ℕ := none
  details : Option Json := none

/-- What the body of the `try` throws; a value that is not an `Error` has no message. -/
inductive Thrown
  | api (error : ApiRequestError)
  | exception (name : String) (message : Option String)

def toApiError (error : Thrown) (timedOut : Bool) : ApiRequestError :=
  match error with
  | .api error => error
  | .exception name message =>
    if timedOut then ⟨"Request timed out. Retry when ready.", .timeout, true, none, none⟩
    else if name = "AbortError" then ⟨"Request was cancelled.", .aborted, false, none, none⟩
    else ⟨message.getD "Network request failed.", .network, true, none, none⟩

/-- `String(value)`, which throws for an object whose `toString` is not a function, and the text of the
exception. -/
structure JsEnv where
  toText : Json → Option String
  typeError : String

def jsTruthy : Json → Bool
  | .obj _ | .arr _ => true
  | value => value.truthy

/-- `value[name]` of a value other than `null`. -/
def property (value : Json) (name : String) : Option Json :=
  match value with
  | .obj fields => JsonObject.get fields name
  | _ => none

/-- The left operand of `??`. -/
def present (value : Option Json) : Option Json := value.filter (· ≠ .null)

def detailMessage (env : JsEnv) (first : Json) : Option String :=
  if first = .null then none
  else do
    let loc ← match property first "loc" with
      | some (.arr parts) =>
        (parts.mapM fun part ↦ if part = .null then some "" else env.toText part).map (".".intercalate ·)
      | _ => some ""
    match (property first "msg").filter (jsTruthy ·) with
    | some msg => (env.toText msg).map ((if loc = "" then "" else loc ++ ": ") ++ ·)
    | none => some ""

def errorMessage (env : JsEnv) (details : Option Json) (message : Json) : Option String :=
  match details with
  | some (.arr (first :: _)) => do
    let detailMsg ← detailMessage env first
    let text ← env.toText message
    some (if detailMsg = "" then text else text ++ " (" ++ detailMsg ++ ")")
  | _ => env.toText message

/-- What is thrown for a response that is not `ok`: a `TypeError` when its message cannot be read. -/
def httpError (env : JsEnv) (status : ℕ) (body : Option Json) : Thrown :=
  let error := body.getD (.obj [("error", .obj [("message", .str "Request failed")])])
  let inner := present (property error "error")
  let details := (present (inner.bind (property · "details"))).or (present (property error "detail"))
  let message := ((present (inner.bind (property · "message"))).or
    ((present (property error "detail")).or (present (property error "message")))).getD (.str "Request failed")
  match if error = .null then none else errorMessage env details message with
  | none => .exception "TypeError" (some env.typeError)
  | some text =>
    .api ⟨text, .http, status = 429 ∨ status = 502 ∨ status = 503 ∨ status = 504, some status, details⟩

/-! ### A call -/

/-- One run of the body of `apiFetch`: the refresh it follows, whether its request has left, and the status
the server has answered it with. -/
structure Attempt where
  retry : Bool
  refresh : Option ℕ := none
  transmitted : Bool := false
  status : Option ℕ := none

/-- The server has handled the request: 401 is the answer of a request that it has not let in. -/
def Attempt.processed (a : Attempt) : Bool := a.status.any (· ≠ 401)

def Attempt.serve (status : ℕ) (a : Attempt) : Attempt :=
  if a.transmitted && a.status.isNone then { a with status := some status } else a

inductive Settled
  | undefined
  | value (body : Json)
  | invalidJson
  | failed (error : ApiRequestError)

inductive Phase
  | fetching
  | refreshing (refresh : ℕ)
  | waiting
  | settled (result : Settled)

/-- A call, with its attempts from the last to the first. -/
structure Call where
  path : String
  method : String
  aborted : Bool := false
  attempts : List Attempt := [{ retry := true }]
  phase : Phase := .fetching

def Attempt.canRetryWithRefresh (a : Attempt) (path : String) (status : ℕ) : Bool :=
  a.retry && status = 401 && path ∉ ["/auth/sign-in", "/auth/sign-up", "/auth/forgot-password",
    "/auth/reset-password", "/auth/verify-email", "/auth/refresh"]

namespace Call

/-- `apiFetch(path, options, false)`. -/
def again (c : Call) (refresh : Option ℕ) : Call :=
  { c with attempts := { retry := false, refresh := refresh } :: c.attempts, phase := .fetching }

/-- The `catch` of an attempt. -/
def caught (c : Call) (a : Attempt) (error : Thrown) (timedOut : Bool) : Call :=
  let apiError := toApiError error timedOut
  if a.retry && apiError.retryable && apiError.code = .network then { c with phase := .waiting }
  else { c with phase := .settled (.failed apiError) }

def transmit (c : Call) : Call :=
  match c.phase, c.aborted, c.attempts with
  | .fetching, false, a :: earlier => { c with attempts := { a with transmitted := true } :: earlier }
  | _, _, _ => c

def serve (index status : ℕ) (c : Call) : Call :=
  { c with attempts := c.attempts.modify index (Attempt.serve status) }

/-- The answer is that of the server, or a gateway gives one in its place. -/
def answered (c : Call) (status : ℕ) : Option Attempt :=
  match c.phase, c.attempts with
  | .fetching, a :: _ =>
    if a.transmitted ∧ (a.status = some status ∨ status = 502 ∨ status = 503 ∨ status = 504) then some a
    else none
  | _, _ => none

def respond (env : JsEnv) (refresh status : ℕ) (body : Option Json) (timedOut : Bool) (c : Call) : Call :=
  match c.answered status with
  | none => c
  | some a =>
    if a.canRetryWithRefresh c.path status then { c with phase := .refreshing refresh }
    else if 200 ≤ status ∧ status < 300 then
      { c with phase := .settled (if status = 204 then .undefined else body.elim .invalidJson .value) }
    else c.caught a (httpError env status body) timedOut

def reject (error : Thrown) (timedOut : Bool) (c : Call) : Call :=
  match c.phase, c.attempts with
  | .fetching, a :: _ => c.caught a error timedOut
  | _, _ => c

/-- The call goes on when the refresh it waits for has ended. -/
def resume (results : List (Option Json)) (c : Call) : Call :=
  match c.phase, c.attempts with
  | .refreshing refresh, a :: _ =>
    match results[refresh]? with
    | none => c
    | some payload =>
      if payload.any jsTruthy then c.again (some refresh)
      else c.caught a (.api ⟨"Session expired. Please sign in again.", .http, false, some 401, none⟩) false
  | _, _ => c

def timer (c : Call) : Call :=
  match c.phase with
  | .waiting => c.again none
  | _ => c

end Call

/-! ### The client -/

def performRefresh (answer : Option (ℕ × Option Json)) : Option Json :=
  answer.bind fun response ↦ if 200 ≤ response.1 ∧ response.1 < 300 then present response.2 else none

/-- The calls, whether `refreshPromise` is set, and the values of the refreshes that have ended. -/
structure Client where
  calls : ℕ → Option Call := fun _ ↦ none
  refreshPromise : Bool := false
  results : List (Option Json) := []

inductive Event
  | call (id : ℕ) (path method : String)
  | abort (id : ℕ)
  | transmit (id : ℕ)
  | serve (id index status : ℕ)
  | respond (id status : ℕ) (body : Option Json) (timedOut : Bool)
  | reject (id : ℕ) (error : Thrown) (timedOut : Bool)
  | refreshSession
  | refreshed (answer : Option (ℕ × Option Json))
  | resume (id : ℕ)
  | timer (id : ℕ)

def Client.modify (s : Client) (id : ℕ) (f : Call → Call) : Client :=
  { s with calls := fun other ↦ if other = id then (s.calls id).map f else s.calls other }

/-- Whether the answer makes the call wait for a refresh. -/
def Call.expires (c : Call) (status : ℕ) : Bool :=
  (c.answered status).any (·.canRetryWithRefresh c.path status)

def step (env : JsEnv) (s : Client) : Event → Client
  | .call id path method =>
    if (s.calls id).isSome then s
    else { s with calls := fun other ↦ if other = id then some { path, method } else s.calls other }
  | .abort id => s.modify id fun c ↦ { c with aborted := true }
  | .transmit id => s.modify id Call.transmit
  | .serve id index status => s.modify id (Call.serve index status)
  | .respond id status body timedOut =>
    { s.modify id (Call.respond env s.results.length status body timedOut) with
      refreshPromise := s.refreshPromise || (s.calls id).any (·.expires status) }
  | .reject id error timedOut => s.modify id (Call.reject error timedOut)
  | .refreshSession => { s with refreshPromise := true }
  | .refreshed answer =>
    if s.refreshPromise then { s with refreshPromise := false, results := s.results ++ [performRefresh answer] }
    else s
  | .resume id => s.modify id (Call.resume s.results)
  | .timer id => s.modify id Call.timer

/-! ### What may be sent twice -/

/-- The server processes the request at most once, and a second request follows a 401 answer to the first and
a successful refresh. -/
structure SentOnce (results : List (Option Json)) (c : Call) : Prop where
  processed : (c.attempts.filter Attempt.processed).length ≤ 1
  resent : (c.attempts.filter Attempt.transmitted).length ≤ 1 ∨
    ∃ second first refresh payload, c.attempts = [second, first] ∧ first.status = some 401 ∧
      second.refresh = some refresh ∧ results[refresh]? = some (some payload) ∧ jsTruthy payload = true

/-- The first request of the call has left, and ends in a network error. -/
def Call.loses (env : JsEnv) (c : Call) : Event → Bool
  | .respond _ status body timedOut =>
    c.attempts.length = 1 && (c.answered status).any fun a ↦ !a.canRetryWithRefresh c.path status &&
      !(200 ≤ status && status < 300) && (toApiError (httpError env status body) timedOut).code = .network
  | .reject _ error timedOut =>
    match c.phase, c.attempts with
    | .fetching, [a] => a.transmitted && (toApiError error timedOut).code = .network
    | _, _ => false
  | _ => false

def Event.target : Event → Option ℕ
  | .call id _ _ | .abort id | .transmit id | .serve id _ _ | .respond id _ _ _ | .reject id _ _ | .resume id
  | .timer id => some id
  | .refreshSession | .refreshed _ => none

def Loses (env : JsEnv) (id : ℕ) (s : Client) (event : Event) : Prop :=
  event.target = some id ∧ (s.calls id).any (·.loses env event) = true

/-! ### What every step keeps -/

/-- The attempts of a call: the second one follows a network error, or a 401 answer and a successful refresh.
When the call has `kept` its requests, it meets a network error only before the first one has left. -/
inductive Tracked (kept : Prop) (results : List (Option Json)) (c : Call) : Prop
  | first (a : Attempt) (attempts : c.attempts = [a]) (retry : a.retry = true)
      (served : a.transmitted = false → a.status = none)
      (refreshing : ∀ refresh, c.phase = .refreshing refresh → a.status = some 401)
      (waiting : kept → c.phase = .waiting → a.transmitted = false)
  | second (b a : Attempt) (attempts : c.attempts = [b, a]) (retry : b.retry = false)
      (phase : c.phase = .fetching ∨ ∃ result, c.phase = .settled result)
      (served : a.transmitted = false → a.status = none)
      (resent : (kept → a.transmitted = false) ∧ b.refresh = none ∨ (a.status = some 401 ∧ ∃ refresh payload,
        b.refresh = some refresh ∧ results[refresh]? = some (some payload) ∧ jsTruthy payload = true))

variable {env : JsEnv} {kept : Prop} {results : List (Option Json)} {c : Call} {a : Attempt}

theorem Tracked.sentOnce (h : Tracked True results c) : SentOnce results c := by
  cases h with
  | first a hattempts =>
    refine ⟨?_, .inl ?_⟩
    · rw [hattempts]
      exact length_filter_le _ _
    · rw [hattempts]
      exact length_filter_le _ _
  | second b a hattempts _ _ hserved hresent =>
    have hprocessed : a.processed = false := by
      unfold Attempt.processed
      rcases hresent with ⟨hheld, -⟩ | ⟨hstatus, -⟩
      · simp [hserved (hheld trivial)]
      · simp [hstatus]
    constructor
    · rw [hattempts, filter_cons, filter_cons_of_neg (by simp [hprocessed])]
      split <;> simp
    · rcases hresent with ⟨hheld, -⟩ | ⟨hstatus, refresh, payload, hrefresh, hresult, htruthy⟩
      · refine .inl ?_
        rw [hattempts, filter_cons, filter_cons_of_neg (by simp [hheld trivial])]
        split <;> simp
      · exact .inr ⟨b, a, refresh, payload, hattempts, hstatus, hrefresh, hresult, htruthy⟩

/-- The refreshes that have ended stay as they are. -/
theorem Tracked.append (h : Tracked kept results c) (later : List (Option Json)) : Tracked kept (results ++ later) c := by
  cases h with
  | first a hattempts hretry hserved hrefreshing hwaiting =>
    exact .first a hattempts hretry hserved hrefreshing hwaiting
  | second b a hattempts hretry hphase hserved hresent =>
    refine .second b a hattempts hretry hphase hserved (hresent.imp_right ?_)
    rintro ⟨hstatus, refresh, payload, hrefresh, hresult, htruthy⟩
    have hlt := (List.getElem?_eq_some_iff.mp hresult).1
    exact ⟨hstatus, refresh, payload, hrefresh, (getElem?_append_left hlt).trans hresult, htruthy⟩

theorem Tracked.settle (h : Tracked kept results c) (result : Settled) :
    Tracked kept results { c with phase := .settled result } := by
  cases h with
  | first a hattempts hretry hserved => exact .first a hattempts hretry hserved (by simp) (by simp)
  | second b a hattempts hretry _ hserved hresent =>
    exact .second b a hattempts hretry (.inr ⟨result, rfl⟩) hserved hresent

/-- Only an attempt that may be retried waits for the timer. -/
theorem Tracked.caught {earlier : List Attempt} {error : Thrown} (h : Tracked kept results c)
    (hlast : c.attempts = a :: earlier)
    (hheld : kept → earlier = [] → (toApiError error timedOut).code = .network → a.transmitted = false) :
    Tracked kept results (c.caught a error timedOut) := by
  unfold Call.caught
  dsimp only
  split
  next hwaits =>
    simp only [Bool.and_eq_true, decide_eq_true_eq] at hwaits
    cases h with
    | first b hattempts hretry hserved =>
      obtain ⟨rfl, rfl⟩ := cons.inj (hlast.symm.trans hattempts)
      exact .first a hattempts hretry hserved (by simp) fun hkept _ ↦ hheld hkept rfl hwaits.2
    | second b first hattempts hretry =>
      obtain ⟨rfl, -⟩ := cons.inj (hlast.symm.trans hattempts)
      simp [hretry] at hwaits
  next => exact h.settle _

theorem Tracked.transmit (h : Tracked kept results c) : Tracked kept results c.transmit := by
  unfold Call.transmit
  split
  next b earlier hphase _ hlast =>
    cases h with
    | first a hattempts hretry =>
      obtain ⟨rfl, rfl⟩ := cons.inj (hlast.symm.trans hattempts)
      exact .first _ rfl hretry (by simp) (by simp [hphase]) (by simp [hphase])
    | second a' a hattempts hretry _ hserved hresent =>
      obtain ⟨rfl, rfl⟩ := cons.inj (hlast.symm.trans hattempts)
      exact .second _ a rfl hretry (.inl hphase) hserved hresent
  next => exact h

/-- The server answers a request that has left, and once. -/
theorem Tracked.serve (h : Tracked kept results c) (index status : ℕ) : Tracked kept results (c.serve index status) := by
  cases h with
  | first a hattempts hretry hserved hrefreshing hwaiting =>
    match index with
    | 0 =>
      refine .first (a.serve status) (by simp [Call.serve, hattempts]) ?_ ?_ ?_ ?_
      all_goals
        unfold Attempt.serve
        split <;> simp_all [Call.serve]
    | _ + 1 => exact .first a (by simp [Call.serve, hattempts]) hretry hserved hrefreshing hwaiting
  | second b a hattempts hretry hphase hserved hresent =>
    match index with
    | 0 =>
      refine .second (b.serve status) a (by simp [Call.serve, hattempts]) ?_ hphase hserved ?_
      all_goals
        unfold Attempt.serve
        split <;> simp_all
    | 1 =>
      refine .second b (a.serve status) (by simp [Call.serve, hattempts]) hretry hphase ?_ ?_
      all_goals
        unfold Attempt.serve
        split <;> simp_all
    | _ + 2 => exact .second b a (by simp [Call.serve, hattempts]) hretry hphase hserved hresent

theorem Call.answered_eq_some (h : c.answered status = some a) :
    (∃ earlier, c.attempts = a :: earlier) ∧ a.transmitted = true ∧ (status = 401 → a.status = some 401) := by
  unfold answered at h
  split at h
  next b earlier _ hattempts =>
    split_ifs at h with hanswer
    cases h
    refine ⟨⟨earlier, hattempts⟩, hanswer.1, ?_⟩
    rintro rfl
    exact hanswer.2.resolve_right (by simp)
  next => cases h

theorem Tracked.respond {body : Option Json} (refresh : ℕ)
    (h : Tracked kept results c) (hkept : kept → c.loses env (.respond id status body timedOut) = false) :
    Tracked kept results (c.respond env refresh status body timedOut) := by
  unfold Call.respond
  cases hanswered : c.answered status with
  | none => exact h
  | some a =>
    obtain ⟨⟨earlier, hlast⟩, htransmitted, hexpired⟩ := Call.answered_eq_some hanswered
    dsimp only
    split_ifs with hrefresh hok hempty
    · have hretry : a.retry = true ∧ status = 401 := by
        simp only [Attempt.canRetryWithRefresh, Bool.and_eq_true, decide_eq_true_eq] at hrefresh
        exact hrefresh.1
      cases h with
      | first b hattempts hretry' hserved =>
        obtain ⟨rfl, rfl⟩ := cons.inj (hlast.symm.trans hattempts)
        exact .first a hattempts hretry' hserved (fun _ _ ↦ hexpired hretry.2) (by simp)
      | second b first hattempts hretry' =>
        obtain ⟨rfl, -⟩ := cons.inj (hlast.symm.trans hattempts)
        simp [hretry'] at hretry
    · exact h.settle _
    · exact h.settle _
    · refine h.caught hlast fun hk hone hnetwork ↦ ?_
      subst hone
      have hloses := hkept hk
      simp [Call.loses, hlast, hanswered, hrefresh, hnetwork] at hloses
      omega

theorem Tracked.reject {error : Thrown} (h : Tracked kept results c)
    (hkept : kept → c.loses env (.reject id error timedOut) = false) : Tracked kept results (c.reject error timedOut) := by
  unfold Call.reject
  split
  next a earlier hphase hlast =>
    refine h.caught hlast fun hk hone hnetwork ↦ ?_
    subst hone
    simpa [Call.loses, hphase, hlast, hnetwork] using hkept hk
  next => exact h

/-- A call that goes on has made one attempt. -/
theorem Tracked.again {refresh : Option ℕ} (h : Tracked kept results c)
    (hphase : c.phase = .waiting ∧ refresh = none ∨ ∃ id payload, c.phase = .refreshing id ∧ refresh = some id ∧
      results[id]? = some (some payload) ∧ jsTruthy payload = true) : Tracked kept results (c.again refresh) := by
  cases h with
  | first a hattempts hretry hserved hrefreshing hwaiting =>
    refine .second _ a (congrArg (List.cons _) hattempts) rfl (.inl rfl) hserved ?_
    rcases hphase with ⟨hwaits, hnone⟩ | ⟨id, payload, hrefreshes, rfl, hresult, htruthy⟩
    · exact .inl ⟨fun hk ↦ hwaiting hk hwaits, hnone⟩
    · exact .inr ⟨hrefreshing id hrefreshes, id, payload, rfl, hresult, htruthy⟩
  | second b a hattempts hretry hphase' =>
    rcases hphase' with hfetching | ⟨result, hsettled⟩
    · simp [hfetching] at hphase
    · simp [hsettled] at hphase

theorem Tracked.resume (h : Tracked kept results c) : Tracked kept results (c.resume results) := by
  unfold Call.resume
  split
  next id a earlier hphase hlast =>
    split
    next => exact h
    next payload hresult =>
      split_ifs with htruthy
      · cases payload with
        | none => cases htruthy
        | some value => exact h.again (.inr ⟨id, value, hphase, rfl, hresult, htruthy⟩)
      · exact h.caught hlast fun _ _ hnetwork ↦ by cases hnetwork
  next => exact h

theorem Tracked.timer (h : Tracked kept results c) : Tracked kept results c.timer := by
  unfold Call.timer
  split
  next hphase => exact h.again (.inl ⟨hphase, rfl⟩)
  next => exact h

/-! ### Runs -/

/-- The invariant of a run: what is said of the call. -/
def Tracks (kept : Prop) (id : ℕ) (s : Client) : Prop := ∀ c, s.calls id = some c → Tracked kept s.results c

theorem Tracks.modify {s : Client} {target : ℕ} {f : Call → Call} (h : Tracks kept id s)
    (hf : target = id → ∀ c, s.calls id = some c → Tracked kept s.results (f c)) : Tracks kept id (s.modify target f) := by
  intro c hcall
  unfold Client.modify at hcall
  dsimp only at hcall
  split_ifs at hcall with htarget
  · obtain ⟨before, hbefore, rfl⟩ := Option.map_eq_some_iff.mp hcall
    exact hf htarget.symm before (htarget ▸ hbefore)
  · exact h c hcall

theorem Tracks.step {s : Client} {event : Event} (h : Tracks kept id s) (hkept : kept → ¬ Loses env id s event) :
    Tracks kept id (step env s event) := by
  have hloses : event.target = some id → ∀ c, s.calls id = some c → kept → c.loses env event = false := by
    intro htarget c hcall hk
    by_contra hloses
    exact hkept hk ⟨htarget, by simpa [hcall] using hloses⟩
  cases event with
  | call target path method =>
    dsimp only [Frontend.step]
    split_ifs
    · exact h
    · intro c hcall
      dsimp only at hcall
      split_ifs at hcall
      · cases hcall
        exact .first _ rfl rfl (fun _ ↦ rfl) (by simp) (by simp)
      · exact h c hcall
  | abort target =>
    refine h.modify fun _ c hcall ↦ ?_
    cases h c hcall with
    | first a hattempts hretry hserved hrefreshing hwaiting =>
      exact .first a hattempts hretry hserved hrefreshing hwaiting
    | second b a hattempts hretry hphase hserved hresent =>
      exact .second b a hattempts hretry hphase hserved hresent
  | transmit target => exact h.modify fun _ c hcall ↦ (h c hcall).transmit
  | serve target index status => exact h.modify fun _ c hcall ↦ (h c hcall).serve index status
  | respond target status body timedOut =>
    exact h.modify fun htarget c hcall ↦ (h c hcall).respond _ (hloses (congrArg some htarget) c hcall)
  | reject target error timedOut =>
    exact h.modify fun htarget c hcall ↦ (h c hcall).reject (hloses (congrArg some htarget) c hcall)
  | refreshSession => exact h
  | refreshed answer =>
    dsimp only [Frontend.step]
    split_ifs
    · exact fun c hcall ↦ (h c hcall).append _
    · exact h
  | resume target => exact h.modify fun _ c hcall ↦ (h c hcall).resume
  | timer target => exact h.modify fun _ c hcall ↦ (h c hcall).timer

/-- A call whose first request never ends in a network error after it has left sends its request once. -/
theorem apiFetch_sentOnce (env : JsEnv) (events : List Event) (id : ℕ)
    (hkept : Along (step env) (fun s event ↦ ¬ Loses env id s event) events {}) (c : Call)
    (hcall : (play (step env) events {}).calls id = some c) :
    SentOnce (play (step env) events {}).results c :=
  (hkept.invariant (fun s event (hs : Tracks True id s) hloses ↦ hs.step fun _ ↦ hloses) (by simp [Tracks]) c
    hcall).sentOnce

/-- Whatever is lost, a call makes two attempts at most, and the second one names a refresh only after a 401
answer to the first, when that refresh has succeeded. -/
theorem attempts_le_two (env : JsEnv) (events : List Event) (id : ℕ) : let s := play (step env) events {}
    (∀ c, s.calls id = some c → c.attempts.length ≤ 2) ∧
      ∀ c b a refresh, s.calls id = some c → c.attempts = [b, a] → b.refresh = some refresh →
        a.status = some 401 ∧ ∃ payload, s.results[refresh]? = some (some payload) ∧ jsTruthy payload = true := by
  have hs : Tracks False id (play (step env) events {}) :=
    play_invariant (fun s event (hs : Tracks False id s) ↦ hs.step False.elim) events (by simp [Tracks])
  constructor
  · intro c hcall
    rcases hs c hcall with ⟨a, hattempts⟩ | ⟨b, a, hattempts⟩ <;> simp [hattempts]
  · intro c b a refresh hcall hattempts hrefresh
    rcases hs c hcall with ⟨_, hone⟩ | ⟨_, _, htwo, _, _, _, hresent⟩
    · simp [hattempts] at hone
    · obtain ⟨rfl, rfl⟩ : b = _ ∧ a = _ := by simpa [hattempts] using htwo
      simpa [hrefresh] using hresent

/-! ### Two runs -/

def sampleEnv : JsEnv := ⟨fun value ↦ some (value.text fun _ ↦ "[object Object]"), "Cannot read properties of null"⟩

/-- The session has expired: the request is sent again after the refresh. -/
def expiredSession : List Event :=
  [.call 0 "/approvals" "POST", .transmit 0, .serve 0 0 401, .respond 0 401 none false,
    .refreshed (some (200, some (.obj []))), .resume 0, .transmit 0, .serve 0 0 201]

theorem sentOnce_expiredSession : SentOnce [some (.obj [])]
    { path := "/approvals", method := "POST"
      attempts := [⟨false, some 0, true, some 201⟩, ⟨true, none, true, some 401⟩] } :=
  apiFetch_sentOnce sampleEnv expiredSession 0 (by simp [Along, expiredSession, Loses, step]; decide) _ rfl

/-- The answer to a processed request is lost. -/
def lostAnswer : List Event :=
  [.call 0 "/approvals" "POST", .transmit 0, .serve 0 0 201, .reject 0 (.exception "TypeError" (some "Failed to fetch")) false,
    .timer 0, .transmit 0, .serve 0 0 201]

theorem lost_answer_is_sent_again : ¬ ∀ (env : JsEnv) (events : List Event) (id : ℕ) (c : Call),
    (play (step env) events {}).calls id = some c → c.method ≠ "GET" → c.method ≠ "HEAD" →
      SentOnce (play (step env) events {}).results c := by
  intro h
  have htwice := (h sampleEnv lostAnswer 0 _ rfl (by decide +kernel) (by decide +kernel)).processed
  exact absurd htwice (by decide +kernel)

end ContentGenerator.Frontend

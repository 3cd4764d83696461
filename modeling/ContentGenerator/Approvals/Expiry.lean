import ContentGenerator.Approvals.Database
import ContentGenerator.Approvals.Tracking
import ContentGenerator.Workflows.Timeouts

/-!
# The expiry of overdue requests

`expire_stale_approvals_task` expires all overdue requests in one transaction, and every one of them resumes
the node it is bound to. A resume raises unless the node waits or has failed (`Standing`), and what raises
rolls back the whole transaction.

`CanExpire` says of a request and of the requests before it, in terms of the database before the task, that
its turn does not raise. `expired_all_iff`: the task expires every overdue request if and only if each of
them can expire.
-/

namespace ContentGenerator.Approvals

open Lib Lib.Action Workflows List Option NodeTable KeyedTable TenantRun ApprovalOp

variable {run' run : TenantRun} {runId : ℕ} {status : Option NodeStatus} {binding : JsonObject}

/-! ### The rows of a run -/

/-- How an expiry finds the row of a token: it decides the row, the row has failed and is left as it is, or
the call raises. -/
inductive Standing
  | waiting | failed | closed
  deriving DecidableEq

def standingOf : Option NodeStatus → Standing
  | some .waiting => .waiting
  | some .failed => .failed
  | _ => .closed

def rowStanding (st : EngineState) (token : ℕ) : Standing :=
  standingOf ((st.nodes.byResumeToken token).map fun entry ↦ entry.2.status)

section Rows

variable {env : EngineEnv} {now : Time} {st st' : EngineState} {id : RowId} {row : NodeRun} {token : ℕ}

theorem rowStanding_of_find (h : WaitTokens env st) (hrow : st.nodes.find id = some row)
    (htoken : row.resumeToken = some token) : rowStanding st token = standingOf (some row.status) := by
  rw [rowStanding, h.byResumeToken_eq hrow htoken, map_some]

theorem standingOf_of_active {status : NodeStatus} (hwaiting : status ≠ .waiting)
    (hfailed : status ≠ .failed) : standingOf (some status) = .closed := by
  unfold standingOf
  split
  · rename_i h
    exact absurd (Option.some.inj h) hwaiting
  · rename_i h
    exact absurd (Option.some.inj h) hfailed
  · rfl

/-- A resume of one row leaves the standing of every other row as it is. -/
theorem rowStanding_of_ne (h : WaitTokens env st) (h' : WaitTokens env st')
    (hnodes : Unpauses (fun other ↦ other = id) st.nodes st'.nodes)
    (hfails : ∀ other row', other ≠ id → st'.nodes.find other = some row' → row'.status = .failed →
      st.nodes.find other = some row')
    (hrow : st.nodes.find id = some row) (htoken : row.resumeToken = some token) {token' : ℕ}
    (hne : token' ≠ token) : rowStanding st' token' = rowStanding st token' := by
  -- a token of the new table was on the same row before
  have hback : ∀ entry, st'.nodes.byResumeToken token' = some entry →
      ∃ old, st.nodes.byResumeToken token' = some (entry.1, old) := by
    intro entry hentry
    obtain ⟨old, hold, holdToken, -⟩ := hnodes.find_of_token (find_of_byResumeToken hentry)
      (token_of_byResumeToken hentry)
    exact ⟨old, h.byResumeToken_eq hold holdToken⟩
  cases hentry : st.nodes.byResumeToken token' with
  | none =>
    have hnone : st'.nodes.byResumeToken token' = none := by
      cases hentry' : st'.nodes.byResumeToken token' with
      | none => rfl
      | some entry =>
        obtain ⟨old, hold⟩ := hback entry hentry'
        exact absurd (hentry.symm.trans hold) nofun
    rw [rowStanding, rowStanding, hnone, hentry]
  | some entry =>
    obtain ⟨other, old⟩ := entry
    have hold : st.nodes.find other = some old := find_of_byResumeToken hentry
    have holdToken : old.resumeToken = some token' := token_of_byResumeToken hentry
    have hother : other ≠ id := by
      rintro rfl
      rw [mem_unique hold hrow, htoken] at holdToken
      exact hne (Option.some.inj holdToken).symm
    by_cases hrest : old.status.isAtRest
    · rw [rowStanding_of_find h hold holdToken,
        rowStanding_of_find h' (hnodes.find_of_kept hold hrest hother) holdToken]
    · have hactive : old.status ≠ .waiting ∧ old.status ≠ .failed := by
        constructor <;> rintro hstatus <;> rw [hstatus] at hrest <;> exact hrest (by decide)
      rw [rowStanding_of_find h hold holdToken, standingOf_of_active hactive.1 hactive.2, rowStanding]
      cases hentry' : st'.nodes.byResumeToken token' with
      | none => rfl
      | some entry =>
        obtain ⟨previous, hprevious⟩ := hback entry hentry'
        obtain ⟨rfl, rfl⟩ := Prod.mk.inj (mem_unique hentry hprevious)
        have hfind : st'.nodes.find entry.1 = some entry.2 := find_of_byResumeToken hentry'
        refine standingOf_of_active (fun hwaiting ↦ ?_) fun hfailed ↦ ?_
        · have hsame := hnodes.find_of_waiting hfind hwaiting
          exact hactive.1 (mem_unique hold hsame ▸ hwaiting)
        · have hsame := hfails entry.1 entry.2 hother hfind hfailed
          exact hactive.2 (mem_unique hold hsame ▸ hfailed)

theorem standingOf_eq_waiting (h : standingOf status = .waiting) :
    status = some .waiting := by
  unfold standingOf at h
  split at h
  · rfl
  · exact absurd h nofun
  · exact absurd h nofun

theorem standingOf_eq_failed (h : standingOf status = .failed) :
    status = some .failed := by
  unfold standingOf at h
  split at h
  · exact absurd h nofun
  · rfl
  · exact absurd h nofun

theorem expired_valid : pyLower (pyStrip "expired") = "expired" ∧ "expired" ∈ successOutcomes ++ failOutcomes ∧
    "expired" ∉ successOutcomes ∧ "expired" ∈ failOutcomes := by
  decide +kernel

end Rows

/-! ### The expiry of a row -/

section Resume

variable {run : TenantRun} {token : ℕ} (now : Time) (decision : JsonObject)

/-- The expiry of a waiting row decides it. -/
theorem TenantRun.resume_of_waiting (hstanding : rowStanding run.state token = .waiting) :
    ∃ run', run.resume now token "expired" decision = .ok run' ∧
      ∀ token', rowStanding run'.state token' =
        if token' = token then
          if continuesAfterTimeout run.env.render "expired" decision then .closed else .failed
        else rowStanding run.state token' := by
  obtain ⟨⟨id, row⟩, hentry, hwaiting⟩ := map_eq_some_iff.mp (standingOf_eq_waiting hstanding)
  have hrow : run.state.nodes.find id = some row := find_of_byResumeToken hentry
  have htoken : row.resumeToken = some token := token_of_byResumeToken hentry
  obtain ⟨waits, hmarked⟩ := run.waitTokens.markResumed_ok now hrow htoken "expired" decision
  have hresumed : Workflows.resumeWaitingNode run.env now token "expired" decision true run.state =
      .ok (resumedState run.env now id row "expired" decision true waits run.state) :=
    resumeWaitingNode_eq_resumedState (by decide) hrow hentry hwaiting hmarked
  obtain ⟨run', hrun', hstate⟩ := resume_of_ok hresumed
  obtain ⟨-, -, henv⟩ := resume_eq_ok hrun'
  have htokens : WaitTokens run.env run'.state := henv ▸ run'.waitTokens
  refine ⟨run', hrun', fun token' ↦ ?_⟩
  by_cases hsame : token' = token
  · subst hsame
    obtain ⟨row', hrow', hstatus, htoken', -⟩ := resumedState_find run.env now "expired" decision true
      waits hrow
    rw [← hstate] at hrow'
    rw [if_pos rfl, rowStanding_of_find htokens hrow' (htoken'.trans htoken), hstatus]
    simp only [expired_valid.2.2.1, false_or]
    split_ifs <;> rfl
  · rw [if_neg hsame]
    refine rowStanding_of_ne run.waitTokens htokens ?_ ?_ hrow htoken hsame
    · rw [hstate]
      exact resumedState_unpauses run.env now "expired" decision true waits hrow
    · intro other row' hother hrow' hfailed
      rw [hstate] at hrow'
      exact resumedState_noneEnters (by decide) (by decide) (by decide) run.env now "expired" decision true
        waits hother hrow' hfailed

/-- The expiry of a failed row does nothing. -/
theorem TenantRun.resume_of_failed (hstanding : rowStanding run.state token = .failed) :
    ∃ run', run.resume now token "expired" decision = .ok run' ∧ run'.state = run.state := by
  obtain ⟨entry, hentry, hfailed⟩ := map_eq_some_iff.mp (standingOf_eq_failed hstanding)
  refine resume_of_ok ?_
  unfold Workflows.resumeWaitingNode
  dsimp only
  rw [expired_valid.1, if_neg (not_not.mpr expired_valid.2.1), hentry]
  dsimp only
  rw [if_neg fun h ↦ expired_valid.2.2.1 h.2, if_pos ⟨hfailed, expired_valid.2.2.2⟩]

/-- The expiry of every other row raises. -/
theorem TenantRun.resume_of_closed (hstanding : rowStanding run.state token = .closed) :
    ∃ exc, run.resume now token "expired" decision = .error exc := by
  suffices hraises : ∃ exc,
      Workflows.resumeWaitingNode run.env now token "expired" decision true run.state = .error exc by
    obtain ⟨exc, hexc⟩ := hraises
    exact ⟨exc, resume_of_error hexc⟩
  unfold Workflows.resumeWaitingNode
  dsimp only
  rw [expired_valid.1, if_neg (not_not.mpr expired_valid.2.1)]
  cases hentry : run.state.nodes.byResumeToken token with
  | none => exact ⟨_, rfl⟩
  | some entry =>
    rw [rowStanding, hentry, map_some] at hstanding
    have hfailed : entry.2.status ≠ .failed := fun h ↦ absurd (h ▸ hstanding) nofun
    have hwaiting : entry.2.status ≠ .waiting := fun h ↦ absurd (h ▸ hstanding) nofun
    dsimp only
    rw [if_neg fun h ↦ expired_valid.2.2.1 h.2, if_neg fun h ↦ hfailed h.1, if_pos hwaiting]
    exact ⟨_, rfl⟩

end Resume

/-! ### The node of a request -/

section Node

variable {τ : Type} (services : Services τ) (render : Json → String)

def Database.standing (db : Database τ) (node : ℕ × ℕ) : Standing :=
  match db.runs.find node.1 with
  | none => .closed
  | some run => rowStanding run.state node.2

def Database.owner (db : Database τ) (runId : ℕ) : Option (String × EngineEnv) :=
  (db.runs.find runId).map fun run ↦ (run.tenantId, run.env)

def boundNode (db : Database τ) (request : ApprovalRequest) : Option (ℕ × ℕ) :=
  (getWorkflowBinding request).bind fun binding ↦
    (services.readToken (Json.text render ((binding.get "resume_token").getD .null))).filter
      fun node ↦ (db.owner node.1).any fun owner ↦ owner.1 = request.tenantId

def goesOn (db : Database τ) (request : ApprovalRequest) : Bool :=
  (boundNode services render db request).any fun node ↦ (db.owner node.1).any fun owner ↦
    continuesAfterTimeout owner.2.render "expired"
      [("on_timeout", ((getWorkflowBinding request).bind fun binding ↦
        binding.get "on_timeout").getD (.str "stop"))]

/-- The standing of a row after the expiry of some requests: the first one bound to it decides it. -/
def standingAfter (db : Database τ) (earlier : List ApprovalRequest) (node : ℕ × ℕ) : Standing :=
  if db.standing node = .waiting then
    match earlier.find? fun request ↦ boundNode services render db request = some node with
    | none => .waiting
    | some first => if goesOn services render db first then .closed else .failed
  else db.standing node

/-- The expiry of a request after the expiry of others does not raise: it is bound to no node, or to one
that still waits or has failed. -/
def CanExpire (db : Database τ) (earlier : List ApprovalRequest) (request : ApprovalRequest) : Prop :=
  ∀ binding, getWorkflowBinding request = some binding → bindingChannels binding ≠ none ∧
    ∃ node, boundNode services render db request = some node ∧
      standingAfter services render db earlier node ≠ .closed

variable {services render} {db db' : Database τ} {request : ApprovalRequest} {node : ℕ × ℕ}

theorem boundNode_congr (h : db'.owner = db.owner) :
    boundNode services render db' request = boundNode services render db request := by
  unfold boundNode
  rw [h]

/-- The run of a bound request is found. -/
theorem runOfToken_of_boundNode (hbinding : getWorkflowBinding request = some binding)
    (h : boundNode services render db request = some node) :
    ∃ run, db.runs.find node.1 = some run ∧
      db.runOfToken services request.tenantId
          (Json.text render ((binding.get "resume_token").getD .null)) =
        some (node.1, node.2, run) := by
  unfold boundNode at h
  rw [hbinding, bind_some, filter_eq_some_iff] at h
  obtain ⟨hread, htenant⟩ := h
  unfold Database.owner at htenant
  cases hrun : db.runs.find node.1 with
  | none =>
    rw [hrun] at htenant
    simp at htenant
  | some run =>
    rw [hrun] at htenant
    refine ⟨run, rfl, ?_⟩
    unfold Database.runOfToken
    rw [hread, bind_some, hrun, filter_some, if_pos (by simpa using htenant), map_some]

theorem runOfToken_of_not_bound (hbinding : getWorkflowBinding request = some binding)
    (h : boundNode services render db request = none) :
    db.runOfToken services request.tenantId
      (Json.text render ((binding.get "resume_token").getD .null)) = none := by
  unfold boundNode at h
  rw [hbinding, bind_some, filter_eq_none_iff] at h
  unfold Database.runOfToken
  cases hread : services.readToken (Json.text render ((binding.get "resume_token").getD .null)) with
  | none => rfl
  | some node =>
    have htenant := h node hread
    unfold Database.owner at htenant
    rw [bind_some]
    cases hrun : db.runs.find node.1 with
    | none => rfl
    | some run =>
      rw [hrun] at htenant
      rw [filter_some, if_neg (by simpa using htenant), map_none]

/-- The expiry of one more request. -/
theorem standingAfter_append (earlier : List ApprovalRequest) :
    standingAfter services render db (earlier ++ [request]) node =
      if boundNode services render db request = some node ∧
          standingAfter services render db earlier node = .waiting then
        if goesOn services render db request then .closed else .failed
      else standingAfter services render db earlier node := by
  unfold standingAfter
  by_cases hwaiting : db.standing node = .waiting
  · rw [if_pos hwaiting, if_pos hwaiting, find?_append]
    cases hfirst : earlier.find? fun request ↦ boundNode services render db request = some node with
    | none =>
      by_cases hbound : boundNode services render db request = some node
      · rw [none_or, find?_cons_of_pos (by simpa using hbound), if_pos ⟨hbound, rfl⟩]
      · rw [none_or, find?_cons_of_neg (by simpa using hbound), if_neg fun h ↦ hbound h.1]
        rfl
    | some first =>
      rw [some_or, if_neg]
      rintro ⟨-, h⟩
      dsimp only at h
      split_ifs at h
  · rw [if_neg hwaiting, if_neg hwaiting, if_neg fun h ↦ hwaiting h.2]

/-- Whether a run goes on is read off the decision. -/
theorem continuesAfterTimeout_eq (render : Json → String) {decision : JsonObject} {value : Json}
    (h : decision.get "on_timeout" = some value) :
    continuesAfterTimeout render "expired" decision =
      continuesAfterTimeout render "expired" [("on_timeout", value)] := by
  unfold continuesAfterTimeout JsonObject.getTruthy
  rw [h, JsonObject.get_cons, if_pos rfl]

theorem owner_of_run (hrun : db.runs.find node.1 = some run) :
    db.owner node.1 = some (run.tenantId, run.env) := by
  rw [Database.owner, hrun, map_some]

theorem goesOn_of_bound (hbinding : getWorkflowBinding request = some binding)
    (hbound : boundNode services render db request = some node)
    (hrun : db.runs.find node.1 = some run) :
    goesOn services render db request = continuesAfterTimeout run.env.render "expired"
      [("on_timeout", (binding.get "on_timeout").getD (.str "stop"))] := by
  rw [goesOn, hbound, any_some, owner_of_run hrun, any_some, hbinding, bind_some]

theorem goesOn_congr (h : db'.owner = db.owner) :
    goesOn services render db' request = goesOn services render db request := by
  rw [goesOn, boundNode_congr h, h, goesOn]

/-- The standing of a row after another run has taken the place of one. -/
theorem standing_modify (hrun : db.runs.find runId = some run)
    (other : ℕ × ℕ) :
    Database.standing { db with runs := db.runs.modify runId fun _ ↦ run' } other =
      if other.1 = runId then rowStanding run'.state other.2 else db.standing other := by
  unfold Database.standing
  by_cases hother : other.1 = runId
  · rw [if_pos hother, hother]
    dsimp only
    rw [find_modify_self, hrun]
    rfl
  · rw [if_neg hother]
    dsimp only
    rw [find_modify_of_ne _ _ hother]

theorem owner_modify (hrun : db.runs.find runId = some run)
    (htenant : run'.tenantId = run.tenantId) (henv : run'.env = run.env) :
    Database.owner { db with runs := db.runs.modify runId fun _ ↦ run' } = db.owner := by
  funext other
  unfold Database.owner
  dsimp only
  rw [find_modify]
  split_ifs with hother
  · rw [hother, hrun, map_some, map_some, map_some, htenant, henv]
  · rfl

/-- The expiry of a request whose node is closed raises. -/
theorem resume_closed (now : Time) (decision : JsonObject) (hbinding : getWorkflowBinding request = some binding)
    (h : ∀ node, boundNode services render db request = some node → db.standing node = .closed) :
    ∃ exc, resumeWaitingNode services now request.tenantId
        (Json.text render ((binding.get "resume_token").getD .null)) "expired" decision db =
      { result := .error exc, rest := db } := by
  unfold resumeWaitingNode
  cases hbound : boundNode services render db request with
  | none =>
    rw [runOfToken_of_not_bound hbinding hbound]
    exact ⟨_, rfl⟩
  | some node =>
    obtain ⟨run, hrun, hfound⟩ := runOfToken_of_boundNode hbinding hbound
    have hstanding := h node hbound
    rw [Database.standing, hrun] at hstanding
    obtain ⟨exc, hexc⟩ := run.resume_of_closed now decision hstanding
    rw [hfound]
    dsimp only
    rw [hexc]
    exact ⟨exc, rfl⟩

/-- The expiry of a request whose node waits or has failed. -/
theorem resume_open (now : Time) (decision : JsonObject) (hbinding : getWorkflowBinding request = some binding)
    (hbound : boundNode services render db request = some node) (hopen : db.standing node ≠ .closed)
    (hdecision : decision.get "on_timeout" =
      some ((binding.get "on_timeout").getD (.str "stop"))) :
    ∃ db', resumeWaitingNode services now request.tenantId
          (Json.text render ((binding.get "resume_token").getD .null)) "expired" decision db =
        { result := .ok (), rest := db' } ∧
      db'.owner = db.owner ∧ ∀ other, db'.standing other =
        if node = other ∧ db.standing other = .waiting then
          if goesOn services render db request then .closed else .failed
        else db.standing other := by
  obtain ⟨run, hrun, hfound⟩ := runOfToken_of_boundNode hbinding hbound
  have hstanding : db.standing node = rowStanding run.state node.2 := by rw [Database.standing, hrun]
  suffices hresume : ∃ run', run.resume now node.2 "expired" decision = .ok run' ∧
      ∀ token, rowStanding run'.state token =
        if node.2 = token ∧ rowStanding run.state token = .waiting then
          if goesOn services render db request then .closed else .failed
        else rowStanding run.state token by
    obtain ⟨run', hrun', hrows⟩ := hresume
    obtain ⟨-, htenant, henv⟩ := resume_eq_ok hrun'
    refine ⟨{ db with runs := db.runs.modify node.1 fun _ ↦ run' }, ?_, owner_modify hrun htenant henv,
      fun other ↦ ?_⟩
    · unfold resumeWaitingNode
      rw [hfound]
      dsimp only
      rw [hrun']
    · rw [standing_modify hrun]
      by_cases hother : other.1 = node.1
      · have hsame : db.standing other = rowStanding run.state other.2 := by
          rw [Database.standing, hother, hrun]
        have hnode : node = other ↔ node.2 = other.2 :=
          ⟨congrArg Prod.snd, fun h ↦ Prod.ext hother.symm h⟩
        rw [if_pos hother, hrows, hsame]
        simp only [hnode]
      · rw [if_neg hother, if_neg fun h ↦ hother (congrArg Prod.fst h.1).symm]
  cases hrow : rowStanding run.state node.2 with
  | closed => exact absurd (hstanding.trans hrow) hopen
  | waiting =>
    obtain ⟨run', hrun', hrows⟩ := run.resume_of_waiting now decision hrow
    refine ⟨run', hrun', fun token ↦ ?_⟩
    rw [hrows, continuesAfterTimeout_eq _ hdecision, ← goesOn_of_bound hbinding hbound hrun]
    by_cases htoken : token = node.2
    · subst htoken
      rw [if_pos (show node.2 = node.2 from rfl),
        if_pos (show node.2 = node.2 ∧ rowStanding run.state node.2 = .waiting from ⟨rfl, hrow⟩)]
    · rw [if_neg htoken, if_neg fun h ↦ htoken h.1.symm]
  | failed =>
    obtain ⟨run', hrun', hstate⟩ := run.resume_of_failed now decision hrow
    refine ⟨run', hrun', fun token ↦ ?_⟩
    rw [hstate, if_neg]
    rintro ⟨rfl, h⟩
    exact absurd (hrow.symm.trans h) nofun

end Node

/-! ### One request -/

section Request

variable {τ : Type} {services : Services τ} {base : Platform (Database τ)} {now : Time}
  {start w : World (Database τ)} {id : ℕ} {row : ApprovalRequest}

/-- A call on behalf of a request, when it commits nothing. -/
theorem callFor_of_ok {f : Database τ → Reply (Database τ) Unit} {made returned : ServiceCall}
    {rest : Database τ} (h : f w.db.rest = { result := .ok (), rest := rest }) :
    callFor made returned f w =
      (.ok (), { w with db := { w.db with rest := rest }, calls := w.calls ++ [made] ++ [returned] }) := by
  have hcall : call f { w with calls := w.calls ++ [made] } =
      (.ok (), { w with db := { w.db with rest := rest }, calls := w.calls ++ [made] }) := by
    unfold call
    rw [h]
    rfl
  exact (bind_of_ok (show note made w = (.ok (), { w with calls := w.calls ++ [made] }) from rfl)).trans
    (bind_of_ok hcall)

theorem callFor_of_error {f : Database τ → Reply (Database τ) Unit} {made returned : ServiceCall}
    {rest : Database τ} {exc : PyException} (h : f w.db.rest = { result := .error exc, rest := rest }) :
    ∃ w', callFor made returned f w = (.error exc, w') := by
  have hcall : call f { w with calls := w.calls ++ [made] } =
      (.error exc, { w with db := { w.db with rest := rest }, calls := w.calls ++ [made] }) := by
    unfold call
    rw [h]
    rfl
  exact ⟨_, (bind_of_ok (show note made w = (.ok (), { w with calls := w.calls ++ [made] }) from rfl)).trans
    (bind_of_error hcall)⟩

theorem maybeResume_of_bound {p : Platform (Database τ)} (hrow : w.request id = some row)
    (hbinding : getWorkflowBinding row = some binding) {outcome : String}
    (houtcome : row.status.outcome = some outcome) :
    maybeResumeWorkflowFromApproval p id w =
      match bindingChannels binding with
      | none => (.error (typeError "object is not iterable"), w)
      | some channels =>
        let token := Json.text p.render ((binding.get "resume_token").getD .null)
        callFor (.resume id row.tenantId token outcome) (.resumed id row.tenantId token outcome)
          (p.resumeWaitingNode row.tenantId token outcome (decisionPayload p id row binding channels)) w := by
  refine (bind_of_ok (show getRequestById id w = (.ok (some row), w) from
    congrArg (fun found ↦ (Except.ok found, w)) hrow)).trans ?_
  dsimp only
  rw [hbinding, houtcome]
  dsimp only
  cases bindingChannels binding with
  | none => rfl
  | some channels => rfl

def ApprovalRequest.expire (request : ApprovalRequest) : ApprovalRequest := { request with status := .expired }

/-- The state after the expiry of some of the requests of `start`. -/
structure Expiring (services : Services τ) (render : Json → String) (start : World (Database τ))
    (done : List ℕ) (w : World (Database τ)) : Prop where
  request : ∀ id row, start.request id = some row →
    w.request id = some (if id ∈ done then row.expire else row)
  owner : w.db.rest.owner = start.db.rest.owner
  standing : ∀ node, w.db.rest.standing node =
    standingAfter services render start.db.rest (done.filterMap start.request) node

variable {done : List ℕ}

theorem Expiring.request_append (h : Expiring services base.render start done w) (id : ℕ) :
    ∀ other row, start.request other = some row →
      (w.update id ApprovalRequest.expire).request other =
        some (if other ∈ done ++ [id] then row.expire else row) := by
  intro other row hrow
  by_cases hother : other = id
  · subst hother
    rw [request_update_of (h.request other row hrow), if_pos (mem_append_right _ (mem_singleton_self _))]
    split_ifs <;> rfl
  · have hmem : other ∈ done ++ [id] ↔ other ∈ done := by
      rw [mem_append, mem_singleton]
      exact or_iff_left hother
    rw [request_update_of_ne w _ hother, h.request other row hrow]
    simp only [hmem]

/-- A request that can expire does. -/
theorem Expiring.expire (h : Expiring services base.render start done w) (hrow : start.request id = some row)
    (hcan : CanExpire services base.render start.db.rest (done.filterMap start.request) row) :
    ∃ w', expireRequest (databasePlatform services base now) id w = (.ok (), w') ∧
      Expiring services base.render start (done ++ [id]) w' := by
  have hexpired : (w.update id ApprovalRequest.expire).request id = some row.expire := by
    have hlast := h.request_append id id row hrow
    rwa [if_pos (mem_append_right _ (mem_singleton_self _))] at hlast
  have hrows : (done ++ [id]).filterMap start.request = done.filterMap start.request ++ [row] := by
    rw [filterMap_append, filterMap_cons_some hrow, filterMap_nil]
  have hrun : expireRequest (databasePlatform services base now) id w =
      maybeResumeWorkflowFromApproval (databasePlatform services base now) id
        (w.update id ApprovalRequest.expire) := rfl
  rw [hrun]
  cases hbinding : getWorkflowBinding row with
  | none =>
    refine ⟨_, maybeResume_of_unbound hexpired hbinding, h.request_append id, h.owner, fun node ↦ ?_⟩
    have hunbound : boundNode services base.render start.db.rest row = none := by
      rw [boundNode, hbinding, bind_none]
    rw [hrows, standingAfter_append, if_neg fun hsame ↦ some_ne_none node (hsame.1.symm.trans hunbound)]
    exact h.standing node
  | some binding =>
    obtain ⟨hchannels, node, hbound, hopen⟩ := hcan binding hbinding
    obtain ⟨channels, hlist⟩ := ne_none_iff_exists'.mp hchannels
    have hbound' : boundNode services base.render w.db.rest row = some node :=
      (boundNode_congr h.owner).trans hbound
    obtain ⟨db', hreply, howner, hstanding⟩ := resume_open now
      (decisionPayload (databasePlatform services base now) id row.expire binding channels) hbinding hbound'
      ((h.standing node).trans_ne hopen) rfl
    refine ⟨{ w.update id ApprovalRequest.expire with
        db := { (w.update id ApprovalRequest.expire).db with rest := db' }
        calls := w.calls ++ [.resume id row.tenantId
          (Json.text base.render ((binding.get "resume_token").getD .null)) "expired"] ++ [.resumed id row.tenantId
          (Json.text base.render ((binding.get "resume_token").getD .null)) "expired"] },
      (maybeResume_of_bound hexpired hbinding rfl).trans ?_, h.request_append id, howner.trans h.owner,
      fun other ↦ ?_⟩
    · rw [hlist]
      exact callFor_of_ok hreply
    · rw [hrows, standingAfter_append]
      refine (hstanding other).trans ?_
      rw [h.standing, goesOn_congr h.owner, hbound]
      simp only [Option.some.injEq]

theorem Expiring.raises (h : Expiring services base.render start done w) (hrow : start.request id = some row)
    (hcan : ¬ CanExpire services base.render start.db.rest (done.filterMap start.request) row) :
    ∃ exc w', expireRequest (databasePlatform services base now) id w = (.error exc, w') := by
  have hexpired : (w.update id ApprovalRequest.expire).request id = some row.expire := by
    have hlast := h.request_append id id row hrow
    rwa [if_pos (mem_append_right _ (mem_singleton_self _))] at hlast
  have hrun : expireRequest (databasePlatform services base now) id w =
      maybeResumeWorkflowFromApproval (databasePlatform services base now) id
        (w.update id ApprovalRequest.expire) := rfl
  unfold CanExpire at hcan
  push Not at hcan
  obtain ⟨binding, hbinding, hclosed⟩ := hcan
  rw [hrun, maybeResume_of_bound hexpired hbinding rfl]
  cases hchannels : bindingChannels binding with
  | none => exact ⟨_, _, rfl⟩
  | some channels =>
    have hnodes : ∀ node, boundNode services base.render w.db.rest row = some node →
        w.db.rest.standing node = .closed := fun node hbound ↦
      (h.standing node).trans (hclosed (hchannels ▸ some_ne_none channels) node
        ((boundNode_congr h.owner).symm.trans hbound))
    obtain ⟨exc, hreply⟩ := resume_closed now
      (decisionPayload (databasePlatform services base now) id row.expire binding channels) hbinding hnodes
    exact ⟨exc, callFor_of_error hreply⟩

theorem committed_resumeWaitingNode (tenantId text outcome : String) (decision : JsonObject)
    (db : Database τ) :
    (resumeWaitingNode services now tenantId text outcome decision db).committed = none := by
  unfold resumeWaitingNode
  split
  · rfl
  · split <;> rfl

theorem stored_after (w : World (Database τ)) {reply : Reply (Database τ) Unit}
    (h : reply.committed = none) : (w.after reply).stored = w.stored := by
  unfold World.after
  rw [h]

theorem keeps_stored_call {stored : Db (Database τ)} {f : Database τ → Reply (Database τ) Unit}
    (h : ∀ db, (f db).committed = none) : Keeps (fun w ↦ w.stored = stored) (call f) := fun w hw ↦
  (stored_after w (h w.db.rest)).trans hw

/-- Nothing is committed before the end of the task. -/
theorem keeps_stored_expireRequest (stored : Db (Database τ)) (id : ℕ) :
    Keeps (fun w ↦ w.stored = stored) (expireRequest (databasePlatform services base now) id) := by
  refine keeps_bind (keeps_modify fun _ hw ↦ hw) fun _ ↦ keeps_maybeResume_of
    fun _ request token outcome decision _ _ ↦ ?_
  rw [databasePlatform_resume]
  exact keeps_bind (keeps_modify fun _ hw ↦ hw) fun _ ↦
    keeps_bind (keeps_stored_call (committed_resumeWaitingNode request.tenantId token outcome decision)) fun _ ↦
      keeps_modify fun _ hw ↦ hw

end Request

/-! ### The task -/

section Task

variable {τ : Type}

theorem expiring_start (services : Services τ) (render : Json → String) (start : World (Database τ)) :
    Expiring services render start [] start where
  request _ _ hrow := hrow
  owner := rfl
  standing node := by
    unfold standingAfter
    split_ifs with hwaiting
    · exact hwaiting
    · rfl

theorem request_of_overdue {now : Time} {w : World (Database τ)} {id : ℕ} (h : id ∈ w.overdue now) :
    ∃ row, w.request id = some row ∧ row.status = .pending := by
  obtain ⟨entry, hentry, rfl⟩ := List.mem_map.mp h
  obtain ⟨hmem, hdue⟩ := mem_filter.mp hentry
  exact ⟨entry.2, (find_eq_some_iff _ _ _).mpr hmem, (of_decide_eq_true hdue).1⟩

/-- The task expires every overdue request if and only if each of them can expire when it has its turn. -/
theorem expired_all_iff (services : Services τ) (base : Platform (Database τ)) (now : Time)
    (w : World (Database τ)) :
    (∀ id ∈ w.opened.overdue now, ∃ row,
      ((apply (databasePlatform services base now) w (now, .expireStale)).stored.requests.find
        id) = some row ∧ row.status = .expired) ↔
    ∀ before id after, w.opened.overdue now = before ++ id :: after →
      ∀ row, w.opened.request id = some row →
        CanExpire services base.render w.stored.rest (before.filterMap w.opened.request) row := by
  have hrows : ∀ id ∈ w.opened.overdue now, ∃ row, w.opened.request id = some row ∧ row.status = .pending :=
    fun _ hid ↦ request_of_overdue hid
  have hturn : ∀ before id after, w.opened.overdue now = before ++ id :: after →
      ∃ row, w.opened.request id = some row ∧ row.status = .pending := fun before id after hsplit ↦
    hrows id (hsplit ▸ mem_append_right before mem_cons_self)
  have hrun := forEach_cases (expireRequest (databasePlatform services base now))
    (I := Expiring services base.render w.opened)
    (G := fun before id ↦ ∀ row, w.opened.request id = some row →
      CanExpire services base.render w.stored.rest (before.filterMap w.opened.request) row)
    (fun before id after s hsplit hs hcan ↦ ?_) (fun before id after s hsplit hs hcan ↦ ?_)
    (nil_append (w.opened.overdue now)).symm (expiring_start services base.render w.opened)
  · have hkeeps : Keeps (fun s ↦ s.stored = w.stored) (forEach (w.opened.overdue now)
        (expireRequest (databasePlatform services base now))) :=
      keeps_forEach fun id _ ↦ keeps_stored_expireRequest w.stored id
    have hstored := hkeeps w.opened rfl
    have happly : apply (databasePlatform services base now) w (now, .expireStale) =
        (transaction (forEach (w.opened.overdue now)
          (expireRequest (databasePlatform services base now)))).final w.opened := rfl
    rw [happly]
    rcases hrun with ⟨s', hreturns, hexpired, hgood⟩ | ⟨⟨exc, s', hraises⟩, before, id, after, hsplit, hbad⟩
    · refine iff_of_true (fun id hid ↦ ?_) hgood
      obtain ⟨row, hrow, -⟩ := hrows id hid
      refine ⟨row.expire, ?_, rfl⟩
      have hfinal := hexpired.request id row hrow
      rw [if_pos hid] at hfinal
      unfold Action.final Approvals.transaction
      rw [hreturns]
      exact hfinal
    · refine iff_of_false (fun hall ↦ ?_) fun hgood ↦ hbad (hgood before id after hsplit)
      obtain ⟨row, hrow, hpending⟩ := hturn before id after hsplit
      obtain ⟨row', hrow', hexpired⟩ := hall id (hsplit ▸ mem_append_right before mem_cons_self)
      unfold Action.final Approvals.transaction at hrow'
      rw [hraises] at hrow' hstored
      have hsame : s'.stored = w.stored := hstored
      dsimp only at hrow'
      rw [hsame] at hrow'
      rw [mem_unique hrow hrow', hexpired] at hpending
      exact absurd hpending nofun
  · obtain ⟨row, hrow, -⟩ := hturn before id after hsplit
    exact hs.expire hrow (hcan row hrow)
  · obtain ⟨row, hrow, -⟩ := hturn before id after hsplit
    refine hs.raises hrow fun hexpires ↦ hcan fun row' hrow' ↦ ?_
    obtain rfl := mem_unique hrow hrow'
    exact hexpires

end Task

/-! ### A node that was cancelled -/

def cancelledApproval : EngineState :=
  (catalogueEnv approvalGraph repairedGlobals).play [(3, .cancel)] pausedApproval

theorem waitTokens_pausedApproval : WaitTokens (catalogueEnv approvalGraph repairedGlobals) pausedApproval :=
  (waitTokens_startRun _ _ _ _ _).play _

theorem waitTokens_cancelledApproval :
    WaitTokens (catalogueEnv approvalGraph repairedGlobals) cancelledApproval :=
  waitTokens_pausedApproval.play _

/-- Two overdue requests. The second one is bound to the cancelled node. -/
def overdueRequests : World (Database Unit) :=
  let request : ApprovalRequest := { tenantId := "tenant", recipient := "recipient", expiresAt := some 4 }
  let binding := buildWorkflowBinding (some "run") (some "row") (some "a") (some "token") "stop" true []
  let db : Db (Database Unit) :=
    { requests := (single 1 request).insertNew 2
        { request with responsePayloadJson := [("workflow", .obj binding)] }
      rest :=
        { runs := .single 7
            { tenantId := "tenant", env := catalogueEnv approvalGraph repairedGlobals
              state := cancelledApproval, waitTokens := waitTokens_cancelledApproval }
          others := () } }
  { db := db, stored := db }

/-- The cancelled node keeps both requests from expiring. -/
theorem cancelled_node_blocks_expiry :
    (cancelledApproval.nodes.find ⟨"a", ""⟩).map (fun row ↦ (row.status, row.resumeToken)) =
        some (.cancelled, some 3) ∧
      overdueRequests.opened.overdue 5 = [1, 2] ∧
      (overdueRequests.request 1).map getWorkflowBinding = some none ∧
      ∀ id ∈ [1, 2], ((apply (databasePlatform idleServices (mockPlatform []) 5) overdueRequests
        (5, .expireStale)).stored.requests.find id).map ApprovalRequest.status = some .pending := by
  refine ⟨by decide +kernel, by decide +kernel, by decide +kernel, by decide +kernel⟩

end ContentGenerator.Approvals

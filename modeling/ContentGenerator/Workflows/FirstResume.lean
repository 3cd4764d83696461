import ContentGenerator.Workflows.Topological
import ContentGenerator.Workflows.WaitTokens

/-!
# The first resume wins

Calls of `resume_waiting_node` on the token of a waiting node, in any number and with any outcomes and
decisions, from any reachable state: `first_resume_wins`. The node stays exactly as it is until the
first call with a valid outcome, which returns and ends the wait; each later call returns with at most
one more `advance`, or raises and changes nothing.

Other transactions may come between the calls (`Op.isBetween`): everything but cancellations and operator
retries, which take the node out of its state, and `resume_run` by event key, which is a resume under
another name.
-/

namespace ContentGenerator.Workflows

open Lib Relation List Option NodeTable

variable {calls : List (Time × Op)} {rawOutcome : String} {id : RowId} {op : Op} {row : NodeRun}
  {st : EngineState} {token : ℕ} {env : EngineEnv} {now : Time}

/-- The outcomes `resume_waiting_node` accepts. -/
def validOutcome (rawOutcome : String) : Bool :=
  pyLower (pyStrip rawOutcome) ∈ successOutcomes ++ failOutcomes

/-- The operations that may come between the calls. -/
def Op.isBetween : Op → Bool
  | .cancel | .retryNode _ | .retryFromNode _ | .resumeRun _ _ _ => false
  | _ => true

/-- A call on the token with a valid outcome. -/
def Op.decides (token : ℕ) : Op → Bool
  | .resume other rawOutcome _ _ => other = token ∧ validOutcome rawOutcome
  | _ => false

/-! ### Rows at rest -/

/-- An operation between the calls leaves a row at rest alone, unless it is a call on its token. -/
theorem Op.find_of_isBetween (hop : op.isBetween) {st' : EngineState}
    (h : WaitTokens env st) (hrow : st.nodes.find id = some row)
    (hrest : row.status.isAtRest)
    (hother : ∀ token outcome decision advances, op = .resume token outcome decision advances →
      row.resumeToken ≠ some token) (happly : op.apply env now st = .ok st') :
    st'.nodes.find id = some row := by
  cases op with
  | advance =>
    rw [← Except.ok.inj happly]
    exact find_advance hrow hrest
  | execute args token worker draw =>
    rcases (executeClaimedNodeRun_effect happly).pauses with hkeeps | ⟨old, row', settled, hdone⟩
    · exact hkeeps.nodes.find_of_kept hrow hrest not_false
    · have hne : id ≠ args.row := by
        rintro rfl
        rw [mem_unique hrow hdone.find] at hrest
        exact NodeStatus.not_isAtRest_of_isClaimed hdone.claimed hrest
      refine hdone.rest.nodes.find_of_kept ?_ hrest fun hreleased ↦ hne hreleased.1
      rw [hdone.nodes, find_put_of_ne _ _ hne, hrow]
  | resume token outcome decision advances =>
    rw [Op.apply] at happly
    obtain ⟨-, entry, hentry, ⟨-, rfl | ⟨-, rfl⟩⟩ | ⟨-, hresumed⟩⟩ := resumeWaitingNode_eq_ok happly
    · exact hrow
    · exact find_advance hrow hrest
    · have hfind := find_of_byResumeToken hentry
      obtain ⟨waits, -, hresumes⟩ := resumeRow_eq_ok hfind hresumed
      refine hresumes.nodes.find_of_kept hrow hrest ?_
      rintro rfl
      refine hother token outcome decision advances rfl ?_
      rw [mem_unique hrow hfind]
      exact token_of_byResumeToken hentry
  | resolveEvent eventKey payload =>
    obtain ⟨⟨_, waits⟩, -, rfl⟩ := resolveEvent_eq_ok happly
    exact hrow
  | recover limit draw =>
    rw [← Except.ok.inj happly]
    exact (recoverStale_keepsPauses limit draw st).nodes.find_of_kept hrow hrest not_false
  | wake limit =>
    rw [← Except.ok.inj happly]
    exact hrow
  | resumeRun | cancel | retryNode | retryFromNode => exact absurd hop (by simp [Op.isBetween])

/-! ### Single calls -/

/-- A call with an outcome that is not valid raises. -/
theorem resumeWaitingNode_of_invalid {decision : JsonObject}
    {advances : Bool} (h : ¬ validOutcome rawOutcome) :
    resumeWaitingNode env now token rawOutcome decision advances st =
      .error (httpException 422 s!"Unsupported resume outcome '{rawOutcome}'") := by
  unfold resumeWaitingNode
  dsimp only
  rw [if_pos]
  simpa only [validOutcome, decide_eq_true_eq] using h

theorem WaitTokens.markResumed_ok (now : Time) (h : WaitTokens env st)
    (hrow : st.nodes.find id = some row)
    (htoken : row.resumeToken = some token) (outcome : String) (decision : JsonObject) :
    ∃ waits, markResumed now token outcome decision row st.waits = .ok waits := by
  unfold markResumed
  by_cases htype : row.nodeType ∈ ["delay", "wait", "approval"]
  · rw [if_pos htype]
    have hsingle : (pendingUnder token st.waits).length ≤ 1 :=
      h.single id row token hrow htype htoken
    unfold markWaitResolvedByResumeToken
    dsimp only
    split
    · exact ⟨_, rfl⟩
    · exact ⟨_, rfl⟩
    · rename_i hnone hmany
      unfold pendingUnder at hsingle
      rcases Nat.le_one_iff_eq_zero_or_eq_one.mp hsingle with hzero | hone
      · exact absurd (length_eq_zero_iff.mp hzero) hnone
      · obtain ⟨pending, hpending⟩ := length_eq_one_iff.mp hone
        exact absurd hpending (hmany pending)
  · rw [if_neg htype]
    exact ⟨st.waits, rfl⟩

/-- A valid call on a waiting row returns, and the row is over. -/
theorem WaitTokens.resume_of_waiting (now : Time) (h : WaitTokens env st)
    (hrow : st.nodes.find id = some row) (hwaiting : row.status = .waiting)
    (htoken : row.resumeToken = some token) (hvalid : validOutcome rawOutcome)
    (decision : JsonObject) (advances : Bool) :
    ∃ st', resumeWaitingNode env now token rawOutcome decision advances st = .ok st' ∧
      ∃ row', st'.nodes.find id = some row' ∧
        (row'.status = .succeeded ∨ row'.status = .failed) ∧ row'.resumeToken = some token := by
  have hentry := h.byResumeToken_eq hrow htoken
  have hcall : resumeWaitingNode env now token rawOutcome decision advances st =
      resumeRow env now token (pyLower (pyStrip rawOutcome)) decision advances id row st := by
    refine resumeWaitingNode_of_waiting ?_ hentry hwaiting
    simpa only [validOutcome, decide_eq_true_eq] using hvalid
  obtain ⟨waits, hmarked⟩ := h.markResumed_ok now hrow htoken
    (pyLower (pyStrip rawOutcome)) decision
  obtain ⟨st', hst'⟩ : ∃ st', resumeRow env now token (pyLower (pyStrip rawOutcome)) decision advances
      id row st = .ok st' := by
    rw [resumeRow_eq hrow, hmarked]
    exact ⟨_, rfl⟩
  obtain ⟨waits', -, hresumes⟩ := resumeRow_eq_ok hrow hst'
  obtain ⟨row', hrow', hover, hsame⟩ := hresumes.row
  exact ⟨st', hcall.trans hst', row', hrow', hover, hsame.trans htoken⟩

/-- What a call on a token whose row is over comes to: it returns with at most one more `advance`, or
raises. -/
def LateCall (env : EngineEnv) (now : Time) (id : RowId) (op : Op) (st : EngineState) : Prop :=
  (∃ st', op.apply env now st = .ok st' ∧ (st' = st ∨ st' = advance env now st) ∧
      st'.nodes.find id = st.nodes.find id ∧ st'.waits = st.waits ∧
      st'.run.contextSnapshot = st.run.contextSnapshot) ∨
    (∃ status detail, op.apply env now st = .error (httpException status detail)) ∧
      op.run env now st = st

theorem WaitTokens.lateCall (now : Time) (h : WaitTokens env st)
    (hrow : st.nodes.find id = some row) (hover : row.status = .succeeded ∨ row.status = .failed)
    (htoken : row.resumeToken = some token) (rawOutcome : String)
    (decision : JsonObject) (advances : Bool) :
    LateCall env now id (.resume token rawOutcome decision advances) st := by
  have hraises : ∀ status detail, Op.apply env now (.resume token rawOutcome decision advances) st =
      .error (httpException status detail) →
      LateCall env now id (.resume token rawOutcome decision advances) st := by
    intro status detail hcall
    refine .inr ⟨⟨status, detail, hcall⟩, ?_⟩
    rw [Op.run, hcall]
  by_cases hvalid : validOutcome rawOutcome
  · have hmem : pyLower (pyStrip rawOutcome) ∈ successOutcomes ++ failOutcomes := by
      simpa only [validOutcome, decide_eq_true_eq] using hvalid
    have hcall : Op.apply env now (.resume token rawOutcome decision advances) st =
        if row.status = .succeeded ∧ pyLower (pyStrip rawOutcome) ∈ successOutcomes then
          if advances ∧ ¬ st.run.status.isTerminal then .ok (advance env now st) else .ok st
        else if row.status = .failed ∧ pyLower (pyStrip rawOutcome) ∈ failOutcomes then .ok st
        else .error (httpException 409 s!"Node is not waiting (status={row.status.value})") := by
      have hwaiting : row.status ≠ .waiting := by
        rcases hover with hs | hs <;> rw [hs] <;> decide
      rw [Op.apply, resumeWaitingNode, if_neg (not_not.mpr hmem), h.byResumeToken_eq hrow htoken]
      simp only [ne_eq, hwaiting, not_false_eq_true, if_true]
    split_ifs at hcall
    · have hkeeps : KeepsPauses (fun _ ↦ False) st (advance env now st) := advance_keepsPauses st
      refine .inl ⟨_, hcall, .inr rfl, ?_, hkeeps.waits, contextSnapshot_advance st⟩
      rw [hrow]
      refine find_advance hrow ?_
      rcases hover with hs | hs <;> rw [hs] <;> decide
    · exact .inl ⟨st, hcall, .inl rfl, rfl, rfl, rfl⟩
    · exact .inl ⟨st, hcall, .inl rfl, rfl, rfl, rfl⟩
    · exact hraises _ _ hcall
  · exact hraises _ _ (by rw [Op.apply]; exact resumeWaitingNode_of_invalid hvalid)

/-! ### Sequences of calls -/

/-- What the calls of a list do to the node of the token: it waits unchanged as long as none of them has
decided, the first that decides returns, and the node is over from then on; a call after that is late. -/
structure FirstResumeWins (env : EngineEnv) (id : RowId) (row : NodeRun) (token : ℕ)
    (st : EngineState) (calls : List (Time × Op)) : Prop where
  waits : ∀ before after, calls = before ++ after → (∀ call ∈ before, ¬ call.2.decides token) →
    (env.play before st).nodes.find id = some row
  first : ∀ before now op after, calls = before ++ (now, op) :: after →
    (∀ call ∈ before, ¬ call.2.decides token) → op.decides token →
      ∃ st', op.apply env now (env.play before st) = .ok st'
  ended : ∀ before after, calls = before ++ after → (∃ call ∈ before, call.2.decides token) →
    ∃ row', (env.play before st).nodes.find id = some row' ∧
      (row'.status = .succeeded ∨ row'.status = .failed)
  late : ∀ before now rawOutcome decision advances after,
    calls = before ++ (now, .resume token rawOutcome decision advances) :: after →
    (∃ call ∈ before, call.2.decides token) →
      LateCall env now id (.resume token rawOutcome decision advances) (env.play before st)

def ResumedAt (id : RowId) (token : ℕ) (st : EngineState) : Prop :=
  ∃ row, st.nodes.find id = some row ∧ (row.status = .succeeded ∨ row.status = .failed) ∧
    row.resumeToken = some token

section Calls

theorem Op.eq_of_decides (h : op.decides token) :
    ∃ rawOutcome decision advances, op = .resume token rawOutcome decision advances ∧
      validOutcome rawOutcome := by
  cases op with
  | resume other rawOutcome decision advances =>
    simp only [Op.decides, decide_eq_true_eq] at h
    exact ⟨rawOutcome, decision, advances, by rw [h.1], h.2⟩
  | _ => exact absurd h (by simp [Op.decides])

/-- A node that is over stays so between the calls and under late ones. -/
theorem ResumedAt.run (h : WaitTokens env st) (hover : ResumedAt id token st)
    (hop : op.isBetween) : ResumedAt id token (op.run env now st) := by
  obtain ⟨row, hrow, hstatus, htoken⟩ := hover
  have hrest : row.status.isAtRest := by
    rcases hstatus with hs | hs <;> rw [hs] <;> decide
  cases hcall : op.apply env now st with
  | error exc =>
    rw [Op.run, hcall]
    exact ⟨row, hrow, hstatus, htoken⟩
  | ok st' =>
    rw [Op.run, hcall]
    refine ⟨row, ?_, hstatus, htoken⟩
    by_cases hsame : ∃ outcome decision advances, op = .resume token outcome decision advances
    · obtain ⟨outcome, decision, advances, rfl⟩ := hsame
      rcases h.lateCall now hrow hstatus htoken outcome decision advances with
        ⟨late, hlate, -, hfind, -⟩ | ⟨⟨status, detail, herror⟩, -⟩
      · rw [Except.ok.inj (hcall.symm.trans hlate)]
        exact hfind.trans hrow
      · exact absurd (hcall.symm.trans herror) (by simp)
    · refine Op.find_of_isBetween hop h hrow hrest ?_ hcall
      intro other outcome decision advances hother hsameToken
      obtain rfl := mem_unique htoken hsameToken
      exact hsame ⟨outcome, decision, advances, hother⟩

/-- A node that waits is left alone by an operation that does not decide. -/
theorem WaitTokens.find_of_not_decides (now : Time) (h : WaitTokens env st)
    (hrow : st.nodes.find id = some row) (hwaiting : row.status = .waiting)
    (htoken : row.resumeToken = some token) (hop : op.isBetween)
    (hdecides : ¬ op.decides token) : (op.run env now st).nodes.find id = some row := by
  cases hcall : op.apply env now st with
  | error exc =>
    rw [Op.run, hcall]
    exact hrow
  | ok st' =>
    rw [Op.run, hcall]
    refine Op.find_of_isBetween hop h hrow (by rw [hwaiting]; decide) ?_ hcall
    rintro other outcome decision advances rfl hsameToken
    obtain rfl := mem_unique htoken hsameToken
    rw [Op.apply, resumeWaitingNode_of_invalid] at hcall
    · simp at hcall
    · simpa [Op.decides] using hdecides

theorem ResumedAt.play (h : WaitTokens env st)
    (hover : ResumedAt id token st) (hcalls : ∀ call ∈ calls, call.2.isBetween) :
    ResumedAt id token (env.play calls st) := by
  induction calls generalizing st with
  | nil => exact hover
  | cons call rest ih =>
    exact ih (h.run call.2) (hover.run h (hcalls call mem_cons_self))
      fun other hmem ↦ hcalls other (mem_cons_of_mem _ hmem)

theorem WaitTokens.play (h : WaitTokens env st) (calls : List (Time × Op)) :
    WaitTokens env (env.play calls st) := by
  induction calls generalizing st with
  | nil => exact h
  | cons call rest ih => exact ih (h.run call.2)

/-- The node of the token along a list of calls: unchanged while none decides, over afterwards. -/
theorem WaitTokens.play_waiting (h : WaitTokens env st)
    (hrow : st.nodes.find id = some row) (hwaiting : row.status = .waiting)
    (htoken : row.resumeToken = some token) (hcalls : ∀ call ∈ calls, call.2.isBetween) :
    ((∀ call ∈ calls, ¬ call.2.decides token) → (env.play calls st).nodes.find id = some row) ∧
      ((∃ call ∈ calls, call.2.decides token) → ResumedAt id token (env.play calls st)) := by
  induction calls generalizing st with
  | nil => exact ⟨fun _ ↦ hrow, fun ⟨_, hmem, _⟩ ↦ absurd hmem not_mem_nil⟩
  | cons call rest ih =>
    have hrest : ∀ other ∈ rest, other.2.isBetween := fun other hmem ↦
      hcalls other (mem_cons_of_mem _ hmem)
    by_cases hdecides : call.2.decides token
    · refine ⟨fun hnone ↦ absurd hdecides (hnone call mem_cons_self), fun _ ↦ ?_⟩
      obtain ⟨outcome, decision, advances, hop, hvalid⟩ := Op.eq_of_decides hdecides
      obtain ⟨st', hcall, row', hrow', hover, htoken'⟩ := h.resume_of_waiting call.1 hrow
        hwaiting htoken hvalid decision advances
      have hrun : call.2.run env call.1 st = st' := by
        rw [hop, Op.run, Op.apply, hcall]
      have hresumed : ResumedAt id token (call.2.run env call.1 st) := by
        rw [hrun]
        exact ⟨row', hrow', hover, htoken'⟩
      change ResumedAt id token (env.play rest (call.2.run env call.1 st))
      exact ResumedAt.play (h.run call.2) hresumed hrest
    · have hkept := h.find_of_not_decides call.1 hrow hwaiting htoken
        (hcalls call mem_cons_self) hdecides
      obtain ⟨hwaits, hover⟩ := ih (h.run call.2) hkept hrest
      refine ⟨fun hnone ↦ hwaits fun other hmem ↦ hnone other (mem_cons_of_mem _ hmem), ?_⟩
      rintro ⟨other, hmem, hother⟩
      rcases mem_cons.mp hmem with rfl | htail
      · exact absurd hother hdecides
      · exact hover ⟨other, htail, hother⟩

end Calls

/-- The first resume wins: from any reachable state in which a row waits, along any list of calls on
its token and operations between them. -/
theorem first_resume_wins {allowed : Time → Op → EngineState → Prop} {st : EngineState}
    (hst : Reachable env allowed st) {id : RowId} {row : NodeRun}
    (hrow : st.nodes.find id = some row) (hwaiting : row.status = .waiting) {token : ℕ}
    (htoken : row.resumeToken = some token) {calls : List (Time × Op)}
    (hcalls : ∀ call ∈ calls, call.2.isBetween) : FirstResumeWins env id row token st calls := by
  have h := hst.waitTokens
  have hbefore : ∀ {before after : List (Time × Op)}, calls = before ++ after →
      ∀ call ∈ before, call.2.isBetween := by
    intro before after hsplit call hmem
    exact hcalls call (hsplit ▸ mem_append_left _ hmem)
  constructor
  · intro before after hsplit hnone
    exact (h.play_waiting hrow hwaiting htoken (hbefore hsplit)).1 hnone
  · intro before now op after hsplit hnone hdecides
    obtain ⟨outcome, decision, advances, rfl, hvalid⟩ := Op.eq_of_decides hdecides
    have hkept := (h.play_waiting hrow hwaiting htoken (hbefore hsplit)).1 hnone
    obtain ⟨st', hcall, -⟩ := (h.play before).resume_of_waiting now hkept hwaiting htoken
      hvalid decision advances
    exact ⟨st', by rw [Op.apply, hcall]⟩
  · intro before after hsplit hsome
    obtain ⟨row', hrow', hover, -⟩ :=
      (h.play_waiting hrow hwaiting htoken (hbefore hsplit)).2 hsome
    exact ⟨row', hrow', hover⟩
  · intro before now rawOutcome decision advances after hsplit hsome
    obtain ⟨row', hrow', hover, htoken'⟩ :=
      (h.play_waiting hrow hwaiting htoken (hbefore hsplit)).2 hsome
    exact (h.play before).lateCall now hrow' hover htoken' rawOutcome decision advances

/-- The run in which the delay waits under token 3. -/
def pausedDelay : EngineState :=
  (catalogueEnv delayGraph repairedGlobals).play
    [(1, execSucceeds "t" "" 0 [("payload", .obj []), ("trigger_type", .str "manual_trigger")]),
      (2, execReturns "d" "" 2
        { status := .waiting
          output := [("resume_at", .str "2026-01-01T00:00:00Z"), ("scheduled", .bool true),
            ("status", .str "pending")]
          waitingReason := some "delay_until" })]
    (startRun (catalogueEnv delayGraph repairedGlobals) 0 .inline [] [])

/-- Three calls on the paused delay: a misspelt outcome, the fast wake, and a late rejection. -/
theorem pausedDelay_first_resume_wins :
    ∃ row, pausedDelay.nodes.find ⟨"d", ""⟩ = some row ∧ row.status = .waiting ∧
      FirstResumeWins (catalogueEnv delayGraph repairedGlobals) ⟨"d", ""⟩ row 3 pausedDelay
        [(3, .resume 3 "done" [] true), (4, .resume 3 "elapsed" [] true),
          (5, .resume 3 "rejected" [] true)] := by
  have hpaused : (pausedDelay.nodes.find ⟨"d", ""⟩).map (fun row ↦ (row.status, row.resumeToken)) =
      some (.waiting, some 3) := by decide +kernel
  obtain ⟨row, hrow, hcolumns⟩ := map_eq_some_iff.mp hpaused
  obtain ⟨hwaiting, htoken⟩ := Prod.mk.injEq _ _ _ _ ▸ hcolumns
  have hst : Reachable (catalogueEnv delayGraph repairedGlobals) anyOp pausedDelay :=
    reachable_play 0 .inline [] [] (permits_anyOp _ _ _)
  exact ⟨row, hrow, hwaiting, first_resume_wins hst hrow hwaiting htoken (by simp [Op.isBetween])⟩

end ContentGenerator.Workflows

import ContentGenerator.Lib.TokenSlot
import ContentGenerator.Workflows.Inputs

/-!
# The claim protocol of one row

The updates of `node_claiming.py` and a recovery step on one row, as atomic steps of any number of
workers with fresh claim tokens. `ClaimState.play_steps` reads a sequence of steps as steps of a token
slot: a claim puts a fresh token into the row, release, completion, failure and recovery clear it, and
nothing else writes it. `claimTokens_exclusive` follows with the rules of the slot.
-/

namespace ContentGenerator.Workflows

open Lib Relation Option

/-! ### The steps -/

/-- The row, and the first claim token that has not been drawn. -/
structure ClaimState where
  row : NodeRun
  nextToken : ℕ

/-- A step on the row. Each update carries the token its caller holds. -/
inductive ClaimOp
  | claim
  | renew (token : ℕ) (workerTaskId : Option String)
  | begin (token : ℕ) (workerTaskId : Option String) (taskExecutionId : Option ℕ)
  | release (token : ℕ) (requeue : Bool) (nextAttemptAt : Option Time)
  | complete (token : ℕ)
  | fail (token : ℕ) (error : JsonObject) (errorClass lastError : String)
  | recover (draw : ℚ)

def ClaimOp.token : ClaimOp → Option ℕ
  | .claim | .recover _ => none
  | .renew token _ | .begin token _ _ | .release token _ _ | .complete token
  | .fail token _ _ _ => some token

/-- The step on the row `id`; an update whose filter does not match changes nothing. -/
def ClaimOp.apply (env : EngineEnv) (id : RowId) (now : Time) (st : ClaimState) :
    ClaimOp → ClaimState
  | .claim =>
    match claimReadyNode env.runId env.claimLease now st.nextToken id st.row with
    | some claimed => { row := claimed, nextToken := st.nextToken + 1 }
    | none => { st with nextToken := st.nextToken + 1 }
  | .renew token worker =>
    { st with row := (renewNodeClaim env.claimLease now token worker st.row).getD st.row }
  | .begin token worker task =>
    { st with row := (beginNodeExecution env.claimLease now token worker task st.row).getD st.row }
  | .release token requeue nextAttemptAt =>
    { st with row := (releaseNodeClaimOf token requeue nextAttemptAt st.row).getD st.row }
  | .complete token => { st with row := completeNode (some token) st.row }
  | .fail token error errorClass lastError =>
    { st with row := (failNodeOf now token error errorClass lastError st.row).getD st.row }
  | .recover draw => if st.row.isStale now then { st with row := st.row.recover env now draw } else st

def ClaimState.play (env : EngineEnv) (id : RowId) (calls : List (Time × ClaimOp))
    (st : ClaimState) : ClaimState :=
  calls.foldl (fun st call ↦ call.2.apply env id call.1 st) st

def ClaimState.slot (st : ClaimState) : TokenSlot := ⟨st.row.claimToken, st.nextToken⟩

variable {env : EngineEnv} {id : RowId} {now : Time} {st : ClaimState}

/-! ### What a step does to the token -/

theorem claimToken_recordTaskExecution (task : Option ℕ) (row : NodeRun) :
    (NodeRun.recordTaskExecution task row).claimToken = row.claimToken := by
  cases task <;> rfl

theorem claimToken_beginNodeExecution {lease : Time} {token : ℕ} {worker : Option String}
    {task : Option ℕ} {row row' : NodeRun}
    (h : beginNodeExecution lease now token worker task row = some row') :
    row.claimToken = some token ∧ row'.claimToken = row.claimToken := by
  unfold beginNodeExecution at h
  rw [ite_none_right_eq_some] at h
  obtain ⟨⟨htoken, -, -⟩, hrow⟩ := h
  cases hrow
  exact ⟨htoken, claimToken_recordTaskExecution _ _⟩

theorem claimToken_renewNodeClaim {lease : Time} {token : ℕ} {worker : Option String}
    {row row' : NodeRun} (h : renewNodeClaim lease now token worker row = some row') :
    row.claimToken = some token ∧ row'.claimToken = row.claimToken := by
  unfold renewNodeClaim at h
  rw [ite_none_right_eq_some] at h
  obtain ⟨⟨htoken, -⟩, hrow⟩ := h
  cases hrow
  exact ⟨htoken, rfl⟩

theorem claimToken_recover (env : EngineEnv) (now : Time) (draw : ℚ) (row : NodeRun) :
    (row.recover env now draw).claimToken = none := by
  unfold NodeRun.recover
  dsimp only
  split_ifs <;> rfl

/-- A step is a step of the slot. -/
theorem ClaimOp.apply_step (env : EngineEnv) (id : RowId) (now : Time) (op : ClaimOp)
    (st : ClaimState) : st.slot.Step (op.apply env id now st).slot := by
  have hkeep : st.slot.Step st.slot := .keep _ le_rfl
  cases op with
  | claim =>
    dsimp only [ClaimOp.apply]
    split
    · rename_i claimed hclaimed
      unfold claimReadyNode at hclaimed
      rw [ite_none_right_eq_some] at hclaimed
      obtain rfl := Option.some.inj hclaimed.2
      exact .issue _ _ le_rfl (Nat.lt_succ_self _)
    · exact .keep _ (Nat.le_succ _)
  | renew token worker =>
    dsimp only [ClaimOp.apply, ClaimState.slot]
    cases hrow : renewNodeClaim env.claimLease now token worker st.row with
    | none => exact hkeep
    | some row' =>
      rw [getD_some, (claimToken_renewNodeClaim hrow).2]
      exact hkeep
  | begin token worker task =>
    dsimp only [ClaimOp.apply, ClaimState.slot]
    cases hrow : beginNodeExecution env.claimLease now token worker task st.row with
    | none => exact hkeep
    | some row' =>
      rw [getD_some, (claimToken_beginNodeExecution hrow).2]
      exact hkeep
  | release token requeue nextAttemptAt =>
    dsimp only [ClaimOp.apply, releaseNodeClaimOf]
    split_ifs
    · exact .clear _ le_rfl
    · exact .clear _ le_rfl
    · exact hkeep
  | complete token =>
    dsimp only [ClaimOp.apply]
    by_cases htoken : st.row.claimToken = some token
    · rw [completeNode, if_pos (.inr htoken)]
      exact .clear _ le_rfl
    · rw [completeNode, if_neg (by simpa using htoken)]
      exact hkeep
  | fail token error errorClass lastError =>
    dsimp only [ClaimOp.apply, failNodeOf]
    split_ifs
    · exact .clear _ le_rfl
    · exact hkeep
  | recover draw =>
    dsimp only [ClaimOp.apply]
    split_ifs
    · unfold ClaimState.slot
      rw [claimToken_recover]
      exact .clear _ le_rfl
    · exact hkeep

/-- A sequence of steps is a run of the slot. -/
theorem ClaimState.play_steps (env : EngineEnv) (id : RowId) (calls : List (Time × ClaimOp))
    (st : ClaimState) : ReflTransGen TokenSlot.Step st.slot (st.play env id calls).slot :=
  foldl_reflTransGen ClaimState.slot st fun acc call _ ↦
    .single (call.2.apply_step env id call.1 acc)

/-- An update that carries a token the row does not hold changes nothing. -/
theorem ClaimOp.apply_of_ne {op : ClaimOp} {token : ℕ} (hop : op.token = some token)
    (hne : st.row.claimToken ≠ some token) : op.apply env id now st = st := by
  cases op with
  | claim | recover draw => exact absurd hop (by simp [ClaimOp.token])
  | renew other worker =>
    cases hop
    simp [ClaimOp.apply, renewNodeClaim, hne]
  | begin other worker task =>
    cases hop
    simp [ClaimOp.apply, beginNodeExecution, hne]
  | release other requeue nextAttemptAt =>
    cases hop
    simp [ClaimOp.apply, releaseNodeClaimOf, hne]
  | complete other =>
    cases hop
    simp [ClaimOp.apply, completeNode, hne]
  | fail other error errorClass lastError =>
    cases hop
    simp [ClaimOp.apply, failNodeOf, hne]

def NodeRun.Accepts (env : EngineEnv) (row : NodeRun) (token : ℕ) : Prop :=
  (∃ now worker task, (beginNodeExecution env.claimLease now token worker task row).isSome) ∨
    ∃ now worker, (renewNodeClaim env.claimLease now token worker row).isSome

theorem NodeRun.Accepts.claimToken {row : NodeRun} {token : ℕ} (h : row.Accepts env token) :
    row.claimToken = some token := by
  rcases h with ⟨now, worker, task, hsome⟩ | ⟨now, worker, hsome⟩
  · obtain ⟨row', hrow'⟩ := isSome_iff_exists.mp hsome
    exact (claimToken_beginNodeExecution hrow').1
  · obtain ⟨row', hrow'⟩ := isSome_iff_exists.mp hsome
    exact (claimToken_renewNodeClaim hrow').1

/-! ### The property -/

/-- What exclusive claims mean in a state: a claim succeeds only from a `READY` row that is due, and
begin and renew accept at most one token. -/
structure ExclusiveClaims (env : EngineEnv) (id : RowId) (st : ClaimState) : Prop where
  claims : ∀ now claimed, claimReadyNode env.runId env.claimLease now st.nextToken id st.row =
    some claimed → st.row.status = .ready ∧ ∀ due ∈ st.row.nextAttemptAt, due ≤ now
  accepts : ∀ token token', st.row.Accepts env token → st.row.Accepts env token' → token = token'

theorem exclusiveClaims (env : EngineEnv) (id : RowId) (st : ClaimState) :
    ExclusiveClaims env id st where
  claims := by
    intro now claimed hclaimed
    unfold claimReadyNode at hclaimed
    rw [ite_none_right_eq_some] at hclaimed
    obtain ⟨⟨hready, hdue⟩, -⟩ := hclaimed
    refine ⟨hready, fun due hmem ↦ ?_⟩
    unfold NodeRun.isDue at hdue
    rw [mem_def.mp hmem] at hdue
    simpa using hdue
  accepts := by
    intro token token' h h'
    exact mem_unique h.claimToken h'.claimToken

/-- For every sequence of steps on a row: in the state it leads to, claims are exclusive, and once a
step has taken a token off the row, no update that carries it changes the row, whatever steps come in
between. Assumes: the token the row holds at the start, if any, has been drawn from the counter. -/
theorem claimTokens_exclusive (env : EngineEnv) (id : RowId) (start : ClaimState)
    (hdrawn : ∀ token, start.row.claimToken = some token → token < start.nextToken)
    (before : List (Time × ClaimOp)) :
    ExclusiveClaims env id (start.play env id before) ∧
      ∀ (token : ℕ) (now : Time) (op : ClaimOp),
        (start.play env id before).row.claimToken = some token →
        (op.apply env id now (start.play env id before)).row.claimToken ≠ some token →
        ∀ (between : List (Time × ClaimOp)) (now' : Time) (op' : ClaimOp), op'.token = some token →
          op'.apply env id now'
              ((op.apply env id now (start.play env id before)).play env id between) =
            (op.apply env id now (start.play env id before)).play env id between := by
  refine ⟨exclusiveClaims env id _, fun token now op hheld hcleared between now' op' hop' ↦ ?_⟩
  have hissued : (start.play env id before).slot.Issued :=
    TokenSlot.Issued.run (s := start.slot) hdrawn (start.play_steps env id before)
  have hnext : token < (op.apply env id now (start.play env id before)).nextToken :=
    lt_of_lt_of_le (hissued token hheld) (op.apply_step env id now _).next_le
  have hretired : TokenSlot.Retired token
      (op.apply env id now (start.play env id before)).slot := ⟨hnext, hcleared⟩
  exact ClaimOp.apply_of_ne hop' (hretired.run (ClaimState.play_steps env id between _)).2

/-- A `READY` row that no worker has claimed. -/
def unclaimedDelay : ClaimState :=
  { row := { nodeType := "delay", nodeVersion := 1, status := .ready }, nextToken := 0 }

/-- The row is claimed, released and claimed again: a late failure under the first token changes
nothing. -/
theorem unclaimedDelay_late_fail :
    let env := catalogueEnv { nodes := [], edges := [] } repairedGlobals
    let released := (ClaimOp.release 0 true none).apply env ⟨"d", ""⟩ 2
      (unclaimedDelay.play env ⟨"d", ""⟩ [(1, .claim)])
    (ClaimOp.fail 0 [] "permanent" "late").apply env ⟨"d", ""⟩ 4
        (released.play env ⟨"d", ""⟩ [(3, .claim)]) =
      released.play env ⟨"d", ""⟩ [(3, .claim)] := by
  intro env released
  exact (claimTokens_exclusive env ⟨"d", ""⟩ unclaimedDelay
    (fun _ h ↦ absurd h (by simp [unclaimedDelay])) [(1, .claim)]).2 0 2 (.release 0 true none) rfl
    (by decide) [(3, .claim)] 4 _ rfl

end ContentGenerator.Workflows

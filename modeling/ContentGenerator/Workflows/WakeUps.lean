import ContentGenerator.Workflows.Outcome
import ContentGenerator.Workflows.StuckRuns

/-!
# Wake-ups

Who picks up a `READY` row. The row keeps the moment from which it may be claimed, the message that
shall pick it up has a moment of its own, and only `advance` claims. An advance that comes before the
row is due is consumed and claims nothing: `Wakeable` is the condition under which that loses nothing,
and `WakesUp` asks for it wherever a transaction advances the run.

`Awake` is the invariant: a run that is not over and has a `READY` row has an advance in flight, or a
row that is queued, running or waiting. `no_lost_wakeup` carries it through the runs. Pending rows are
always due (`PendingDue`), so what `advance` promotes it also claims.
-/

namespace ContentGenerator.Workflows

open Lib Relation List Option KeyedTable NodeTable NodeRun Except
open ReflTransGen (invariant single)

variable {draw : ℚ} {f : NodeRun → NodeRun} {st : EngineState} {t t' : NodeTable} {env : EngineEnv}
  {now : Time}

/-! ### The property and the condition -/

/-- A worker or a decision is to write the row. -/
def NodeStatus.isBusy (status : NodeStatus) : Bool :=
  status = .queued ∨ status = .running ∨ status = .waiting

/-- Some row satisfies `p`. -/
def SomeRow (t : NodeTable) (p : NodeRun → Prop) : Prop := ∃ id row, t.find id = some row ∧ p row

/-- An advance message has been sent and not been delivered. -/
def EngineState.AdvanceInFlight (st : EngineState) : Prop :=
  ∃ envelope ∈ st.outbox, envelope.message = .advance

/-- No row is left `READY` by a running run that has no message in flight and no busy row. -/
def NoLostWakeUp (st : EngineState) : Prop :=
  st.run.status = .running → st.outbox = [] →
    (∀ id row, st.nodes.find id = some row → ¬ row.status.isBusy) →
      ∀ id row, st.nodes.find id = some row → row.status ≠ .ready

/-- A `READY` row of a run that is not over has something to wake it. -/
def Awake (st : EngineState) : Prop :=
  ¬ st.run.status.isTerminal → SomeRow st.nodes (fun row ↦ row.status = .ready) →
    st.AdvanceInFlight ∨ SomeRow st.nodes (fun row ↦ row.status.isBusy)

/-- An advance at this moment loses nothing: when some row is `READY`, one of them is due, or another
advance is in flight, or a row is busy. -/
def Wakeable (now : Time) (st : EngineState) : Prop :=
  SomeRow st.nodes (fun row ↦ row.status = .ready) →
    st.AdvanceInFlight ∨ SomeRow st.nodes (fun row ↦ row.status.isBusy) ∨
      SomeRow st.nodes (fun row ↦ row.status = .ready ∧ row.isDue now)

/-- The operation advances the run after a hand-off: an execution always does, a resume when it is
asked to. -/
def Op.advances : Op → Bool
  | .resume _ _ _ advances => advances
  | .resumeRun _ _ advances => advances
  | _ => true

/-- No advance of the transaction comes too early: neither a delivered one nor the one that follows a
hand-off, which meets the rows as they have been handed on. -/
def WakesUp (env : EngineEnv) (now : Time) (op : Op) (st : EngineState) : Prop :=
  match op with
  | .advance => Wakeable now st
  | .retryFromNode nodeId => ¬ env.graph.Ancestor nodeId nodeId
  | _ => ∀ h, op.handOff env now st = some h →
      op.advances ∧ Wakeable now { st with nodes := h.apply env now }

theorem Awake.noLostWakeUp (h : Awake st) : NoLostWakeUp st := by
  intro hrunning hempty hidle id row hrow hready
  have hopen : ¬ st.run.status.isTerminal := by
    rw [hrunning]
    decide
  rcases h hopen ⟨id, row, hrow, hready⟩ with ⟨envelope, hmem, -⟩ | ⟨other, busy, hbusy, hstatus⟩
  · rw [hempty] at hmem
    simp at hmem
  · exact hidle other busy hbusy hstatus

/-! ### Pending rows are due -/

def PendingDue (t : NodeTable) : Prop :=
  ∀ id row, t.find id = some row → row.status = .pending → row.nextAttemptAt = none

theorem PendingDue.of_noneEnters (h : PendingDue t)
    (hnone : NoneEnters .pending t t') : PendingDue t' :=
  fun id row hrow hpending ↦ h id row (hnone id row hrow hpending) hpending

/-! ### Advance -/

section Advance

variable {id : RowId} {row : NodeRun}

theorem mem_claimableRows :
    id ∈ claimableRows t ↔ ∃ row, t.find id = some row ∧ row.status = .ready := by
  unfold claimableRows
  simp only [List.mem_map, mem_filter, decide_eq_true_eq]
  constructor
  · rintro ⟨entry, ⟨hmem, hready⟩, rfl⟩
    exact ⟨entry.2, (find_eq_some_iff _ _ _).mpr hmem, hready⟩
  · rintro ⟨row, hrow, hready⟩
    exact ⟨(id, row), ⟨(find_eq_some_iff _ _ _).mp hrow, hready⟩, rfl⟩

theorem claimableRows_isEmpty_iff :
    (claimableRows t).isEmpty ↔ ¬ SomeRow t (fun row ↦ row.status = .ready) := by
  rw [List.isEmpty_iff, eq_nil_iff_forall_not_mem]
  refine ⟨?_, ?_⟩
  · rintro hnone ⟨id, row, hrow, hstatus⟩
    exact hnone id (mem_claimableRows.mpr ⟨row, hrow, hstatus⟩)
  · intro hready id hmem
    obtain ⟨row, hrow, hstatus⟩ := mem_claimableRows.mp hmem
    exact hready ⟨id, row, hrow, hstatus⟩

/-- A claim changes only a row that is `READY`. -/
theorem find_claimAndEnqueue {other : RowId}
    (hrow : st.nodes.find id = some row) (h : id ≠ other ∨ row.status ≠ .ready) :
    (claimAndEnqueue env now st other).nodes.find id = some row := by
  unfold claimAndEnqueue
  split
  · exact hrow
  · rename_i claimed hclaimed
    have hne : id ≠ other := by
      rcases h with hne | hstatus
      · exact hne
      · rintro rfl
        obtain ⟨old, hold, hclaim⟩ := bind_eq_some_iff.mp hclaimed
        unfold claimReadyNode at hclaim
        rw [ite_none_right_eq_some] at hclaim
        rw [mem_unique hrow hold] at hstatus
        exact hstatus hclaim.1.1
    rw [find_put_of_ne _ _ hne]
    exact hrow

theorem find_claims (ids : List RowId)
    (hrow : st.nodes.find id = some row) (hstatus : row.status ≠ .ready) :
    (ids.foldl (claimAndEnqueue env now) st).nodes.find id = some row :=
  foldl_invariant (P := fun acc : EngineState ↦ acc.nodes.find id = some row)
    (fun _ _ _ hacc ↦ find_claimAndEnqueue hacc (.inr hstatus)) hrow

theorem claims_due {ids : List RowId}
    (hmem : id ∈ ids) (hrow : st.nodes.find id = some row) (hready : row.status = .ready)
    (hdue : row.isDue now) :
    ∃ row', (ids.foldl (claimAndEnqueue env now) st).nodes.find id = some row' ∧
      row'.status = .queued := by
  induction ids generalizing st with
  | nil => simp at hmem
  | cons first rest ih =>
    rw [foldl_cons]
    by_cases hfirst : id = first
    · subst hfirst
      obtain ⟨claimed, hclaim, hqueued⟩ : ∃ claimed,
          claimReadyNode env.runId env.claimLease now st.nextToken id row = some claimed ∧
            claimed.status = .queued := by
        unfold claimReadyNode
        rw [if_pos ⟨hready, hdue⟩]
        exact ⟨_, rfl, rfl⟩
      refine ⟨claimed, find_claims rest ?_ (by rw [hqueued]; decide), hqueued⟩
      unfold claimAndEnqueue
      rw [hrow, bind_some, hclaim]
      exact find_put_self _ _ hrow
    · exact ih ((mem_cons.mp hmem).resolve_left hfirst)
        (find_claimAndEnqueue hrow (.inl hfirst))

/-- A row that is neither pending nor `READY` is left alone. -/
theorem find_advance_of_taken
    (hrow : st.nodes.find id = some row) (hpending : row.status ≠ .pending)
    (hready : row.status ≠ .ready) : (advance env now st).nodes.find id = some row := by
  have hpromoted : (promoteReady env.graph st.nodes).find id = some row := by
    refine invariant (P := fun t : NodeTable ↦ t.find id = some row) ?_
      (promoteReady_steps (fun _ _ h ↦ h) st.nodes) hrow
    rintro t t' hfind ⟨nodeId, other, current, hget, hcurrent, -⟩
    have hne : id ≠ other := by
      rintro rfl
      rw [Option.some.inj (hfind.symm.trans (get_eq_some hget).1)] at hpending
      exact hpending hcurrent
    rw [find_setStatus, if_neg hne]
    exact hfind
  unfold advance
  split_ifs
  · exact hrow
  · exact hrow
  · unfold claimPass
    dsimp only
    refine find_claims _ ?_ hready
    dsimp only
    split_ifs
    · exact hpromoted
    · exact hrow

/-- A run with a failed row is over once it is finalized. -/
theorem finalize_isTerminal (h : runHasFailure st.nodes) :
    (st.finalize env now).run.status.isTerminal := by
  unfold EngineState.finalize finalizeRunStatus
  dsimp only
  split_ifs with hcancelled
  · dsimp only
    rw [hcancelled]
    decide
  · rfl

theorem not_hasFailure_of_running
    (h : (st.finalize env now).run.status = .running) : ¬ runHasFailure st.nodes := by
  intro hfailed
  have hover : (st.finalize env now).run.status.isTerminal := finalize_isTerminal hfailed
  rw [h] at hover
  exact absurd hover (by decide)

theorem any_status_iff {status : NodeStatus} :
    (t.entries.any fun entry ↦ entry.2.status = status) ↔
      SomeRow t (fun row ↦ row.status = status) := by
  unfold SomeRow
  simp only [List.any_eq_true, decide_eq_true_eq, find_eq_some_iff, Prod.exists]

theorem SomeRow.imp {p q : NodeRun → Prop} (h : SomeRow t p) (hpq : ∀ row, p row → q row) : SomeRow t q := by
  obtain ⟨id, row, hrow, hp⟩ := h
  exact ⟨id, row, hrow, hpq row hp⟩

theorem promoteReady_due (hpending : PendingDue t) (hready : ¬ SomeRow t (fun row ↦ row.status = .ready))
    (hrow : (promoteReady env.graph t).find id = some row) (hstatus : row.status = .ready) :
    row.isDue now := by
  have hnone : ∀ id row, (promoteReady env.graph t).find id = some row →
      row.status = .pending ∨ row.status = .ready → row.nextAttemptAt = none := by
    refine invariant (P := fun nodes : NodeTable ↦ ∀ id row, nodes.find id = some row →
      row.status = .pending ∨ row.status = .ready → row.nextAttemptAt = none) ?_
      (promoteReady_steps (fun _ _ h ↦ h) t) ?_
    · rintro nodes nodes' hnodes ⟨nodeId, other, current, hget, hcurrent, -⟩ id row hrow hstatus
      rw [find_setStatus] at hrow
      split_ifs at hrow with hid
      · obtain ⟨old, hold, rfl⟩ := map_eq_some_iff.mp hrow
        rw [hid] at hold
        obtain rfl := Option.some.inj (hold.symm.trans (get_eq_some hget).1)
        exact hnodes other old hold (.inl hcurrent)
      · exact hnodes id row hrow hstatus
    · rintro id row hrow (hstatus | hstatus)
      · exact hpending id row hrow hstatus
      · exact absurd ⟨id, row, hrow, hstatus⟩ hready
  unfold isDue
  rw [hnone id row hrow (.inr hstatus)]

/-- An advance that does not come too early leaves the run awake. -/
theorem advance_awake (hpending : PendingDue st.nodes) (h : Wakeable now st) :
    Awake (advance env now st) := by
  have hkeeps : KeepsPauses (fun _ ↦ False) st (advance env now st) := advance_keepsPauses st
  obtain ⟨sent, houtbox, -⟩ := hkeeps.outbox
  have hflight : st.AdvanceInFlight → (advance env now st).AdvanceInFlight := by
    rintro ⟨envelope, hmem, hadvance⟩
    exact ⟨envelope, by rw [houtbox]; exact mem_append_left _ hmem, hadvance⟩
  have hbusy : SomeRow st.nodes (fun row ↦ row.status.isBusy) →
      SomeRow (advance env now st).nodes (fun row ↦ row.status.isBusy) := by
    rintro ⟨id, row, hrow, hstatus⟩
    have htaken : row.status ≠ .pending ∧ row.status ≠ .ready := by
      revert hstatus
      cases row.status <;> decide
    exact ⟨id, row, find_advance_of_taken hrow htaken.1 htaken.2, hstatus⟩
  intro hopen' hready'
  by_cases hover : st.run.status.isTerminal
  · have hsame : advance env now st = st := by
      unfold advance
      rw [if_pos hover]
    rw [hsame] at hopen'
    exact absurd hover hopen'
  by_cases hactive : runIsWaiting st.nodes ∨ runHasFailure st.nodes
  · have hsame : advance env now st = st.finalize env now := by
      unfold advance
      rw [if_neg hover, if_pos hactive]
    rcases hactive with hwaiting | hfailed
    · refine .inr (hbusy ((any_status_iff.mp hwaiting).imp fun row hstatus ↦ ?_))
      rw [hstatus]
      rfl
    · rw [hsame] at hopen'
      exact absurd (finalize_isTerminal hfailed) hopen'
  -- the rows that are `READY` are claimed when they are due
  have hclaims : ∀ t, (if (claimableRows st.nodes).isEmpty then promoteReady env.graph st.nodes
        else st.nodes) = t → (advance env now st).nodes =
      ((claimableRows t).foldl (claimAndEnqueue env now) { st with nodes := t }).nodes := by
    rintro t rfl
    unfold advance
    rw [if_neg hover, if_neg hactive]
    rfl
  have hclaimed : ∀ t, (advance env now st).nodes =
        ((claimableRows t).foldl (claimAndEnqueue env now) { st with nodes := t }).nodes →
      ∀ id row, t.find id = some row → row.status = .ready → row.isDue now →
        SomeRow (advance env now st).nodes (fun row ↦ row.status.isBusy) := by
    intro t hsame id row hrow hstatus hdue
    have hmem : id ∈ claimableRows t := mem_claimableRows.mpr ⟨row, hrow, hstatus⟩
    have hrowOf : ({ st with nodes := t } : EngineState).nodes.find id = some row := hrow
    obtain ⟨row', hrow', hqueued⟩ := claims_due hmem hrowOf hstatus hdue
    refine ⟨id, row', hsame ▸ hrow', ?_⟩
    show row'.status.isBusy
    rw [hqueued]
    rfl
  by_cases hready : SomeRow st.nodes (fun row ↦ row.status = .ready)
  · have hnonempty : ¬ (claimableRows st.nodes).isEmpty := fun hempty ↦
      claimableRows_isEmpty_iff.mp hempty hready
    rcases h hready with hsent | hbefore | ⟨id, row, hrow, hstatus, hdue⟩
    · exact .inl (hflight hsent)
    · exact .inr (hbusy hbefore)
    · exact .inr (hclaimed st.nodes (hclaims _ (if_neg hnonempty)) id row hrow hstatus hdue)
  · -- a row that is `READY` at the end has just been promoted
    have hsame := hclaims _ (if_pos (claimableRows_isEmpty_iff.mpr hready))
    obtain ⟨id, row, hrow, hstatus⟩ := hready'
    rw [hsame] at hrow
    have hpromoted := claims_noneEnters (by decide) _ _ id row hrow hstatus
    exact .inr (hclaimed _ hsame id row hpromoted hstatus
      (promoteReady_due hpending hready hpromoted hstatus))

/-- Once a run has been finalized and does not run, it is over or a row waits. -/
theorem finalize_awake (h : (st.finalize env now).run.status ≠ .running) :
    Awake (st.finalize env now) := by
  intro hopen _
  refine .inr ?_
  have hwaiting : runIsWaiting st.nodes := by
    unfold EngineState.finalize finalizeRunStatus at h hopen
    dsimp only at h hopen
    split_ifs at h hopen with hcancelled hfailed hwaiting hcomplete hany
    · exact absurd (by rw [hcancelled]; decide) hopen
    · exact absurd rfl hopen
    · exact hwaiting
    · exact absurd rfl hopen
    · exact absurd rfl hopen
    · exact absurd rfl h
  refine (any_status_iff.mp hwaiting).imp fun row hstatus ↦ ?_
  rw [hstatus]
  rfl

theorem Awake.advance (h : Awake st) (hpending : PendingDue st.nodes) :
    Awake (advance env now st) := by
  by_cases hover : st.run.status.isTerminal
  · have hsame : Workflows.advance env now st = st := by
      unfold Workflows.advance
      rw [if_pos hover]
    rw [hsame]
    exact h
  · refine advance_awake hpending fun hready ↦ ?_
    rcases h hover hready with hflight | hbusy
    · exact .inl hflight
    · exact .inr (.inl hbusy)

theorem finalize_advance_awake (hpending : PendingDue st.nodes)
    (h : (st.finalize env now).run.status = .running → Wakeable now st) :
    Awake (if (st.finalize env now).run.status = .running
      then advance env now (st.finalize env now) else st.finalize env now) := by
  split_ifs with hrunning
  · exact advance_awake hpending (h hrunning)
  · exact finalize_awake hrunning

end Advance

/-! ### Executions and resumes -/

section Finish

variable {id : RowId} {begun row row' : NodeRun} {args : ExecuteArgs} {graphNode : GraphNode} {impl : NodeImpl}
  {settled : Executed × Option Finish}

theorem SomeRow.modify {p : NodeRun → Prop}
    (h : SomeRow t p) (hf : ∀ row, p row → p (f row)) : SomeRow (t.modify id f) p := by
  obtain ⟨other, row, hrow, hp⟩ := h
  by_cases hother : other = id
  · exact ⟨other, f row, by rw [find_modify, if_pos hother, hrow]; rfl, hf row hp⟩
  · exact ⟨other, row, by rw [find_modify_of_ne _ _ hother]; exact hrow, hp⟩

theorem SomeRow.of_modify {p : NodeRun → Prop}
    (h : SomeRow (t.modify id f) p) (hf : ∀ row, p (f row) → p row) : SomeRow t p := by
  obtain ⟨other, row, hrow, hp⟩ := h
  rw [find_modify] at hrow
  split_ifs at hrow
  · obtain ⟨old, hold, rfl⟩ := map_eq_some_iff.mp hrow
    exact ⟨other, old, hold, hf old hp⟩
  · exact ⟨other, row, hrow, hp⟩

/-- A write that keeps the status and the due time of a row, and messages that are sent with it. -/
theorem Wakeable.modify {st' : EngineState} (h : Wakeable now st)
    (hnodes : st'.nodes = st.nodes.modify id f)
    (hf : ∀ row, (f row).status = row.status ∧ (f row).nextAttemptAt = row.nextAttemptAt)
    (houtbox : ∃ sent, st'.outbox = st.outbox ++ sent) : Wakeable now st' := by
  unfold Wakeable
  rw [hnodes]
  intro hready
  rcases h (hready.of_modify fun row hrow ↦ (hf row).1 ▸ hrow) with
    ⟨envelope, hmem, hadvance⟩ | hbusy | hdue
  · obtain ⟨sent, hsent⟩ := houtbox
    exact .inl ⟨envelope, by rw [hsent]; exact mem_append_left _ hmem, hadvance⟩
  · refine .inr (.inl (hbusy.modify fun row hrow ↦ ?_))
    rw [(hf row).1]
    exact hrow
  · refine .inr (.inr (hdue.modify fun row hrow ↦ ?_))
    unfold isDue
    rw [(hf row).1, (hf row).2]
    exact hrow

theorem completeNode_wakeUp (token : Option ℕ) (row : NodeRun) :
    (completeNode token row).status = row.status ∧
      (completeNode token row).nextAttemptAt = row.nextAttemptAt := by
  unfold completeNode
  split_ifs <;> exact ⟨rfl, rfl⟩

/-- What follows an execution: a retry that has been scheduled is woken by the message sent for it. -/
theorem followUp_awake
    (hpending : PendingDue st.nodes) (hrow : st.nodes.find id = some row)
    (h : ¬ (row.status = .ready ∧ row.nextAttemptAt.isSome) →
      (st.finalize env now).run.status = .running → Wakeable now st) :
    Awake (followUp env now draw id (st.finalize env now)) := by
  have hfound : (st.finalize env now).nodes.find id = some row := hrow
  unfold followUp
  rw [hfound]
  dsimp only
  by_cases hretry : row.status = .ready ∧ row.nextAttemptAt.isSome
  · rw [if_pos hretry]
    exact fun _ _ ↦ .inl ⟨_, mem_append_right _ mem_cons_self, rfl⟩
  · rw [if_neg hretry]
    exact finalize_advance_awake hpending (h hretry)

/-- The end of an execution releases the claim and finalizes the run. -/
theorem Ran.completeExecution_eq
    (h : Ran env now args st row begun row' graphNode prepared settled) (token : ℕ) :
    ∃ run, completeExecution env now token args.row (handOn env now graphNode.type settled) =
      EngineState.finalize env now
        { (handOn env now graphNode.type settled).state with
          nodes := (handOn env now graphNode.type settled).state.nodes.modify args.row
            (completeNode (some token))
          run := run } := by
  have hrun : (handOn env now graphNode.type settled).state.run = settled.1.state.run := by
    unfold handOn
    split <;> rfl
  have hnodes : ((handOn env now graphNode.type settled).state.nodes.modify args.row
      fun row ↦ completeNode (some token)
        (row.honourCancellation (handOn env now graphNode.type settled).state.run)) =
      (handOn env now graphNode.type settled).state.nodes.modify args.row
        (completeNode (some token)) := by
    refine modify_congr _ fun current hcurrent ↦ ?_
    obtain rfl := mem_unique hcurrent h.find_handOn
    rw [honourCancellation_eq_self (hrun ▸ h.run_not_cancelled)
      (by rw [h.settled.cancellation, h.begun_cancellation])]
  unfold completeExecution
  dsimp only
  rw [hnodes]
  exact ⟨_, rfl⟩

theorem Ran.pendingDue
    (h : Ran env now args st row begun row' graphNode prepared settled) (hpending : PendingDue st.nodes)
    (token : ℕ) : PendingDue ((handOn env now graphNode.type settled).state.nodes.modify args.row
      (completeNode (some token))) := by
  have hstatus' : row'.status ≠ .pending :=
    h.proceeds.begun (NodeStatus.active_of_isClaimed h.claimed).2
  have hsettled : PendingDue settled.1.state.nodes := by
    rw [h.nodes]
    exact hpending.of_noneEnters (noneEnters_put hstatus')
  have hhanded : PendingDue (handOn env now graphNode.type settled).state.nodes := by
    unfold handOn
    split
    · exact hsettled
    · rename_i finish _
      exact hsettled.of_noneEnters (HandOff.noneEnters (by decide) (by decide) env now
        { finish := finish, nodeType := some graphNode.type, nodes := settled.1.state.nodes })
  refine hhanded.of_noneEnters (noneEnters_modify fun current hcurrent ↦ .inr ?_)
  rw [mem_unique hcurrent h.find_handOn, (completeNode_wakeUp _ _).1]
  exact hstatus'

/-- An attempt keeps the run awake when the advance after its hand-off does not come too early. -/
theorem Ran.awake
    (h : Ran env now args st row begun row' graphNode prepared settled) (hpending : PendingDue st.nodes)
    (hwakes : ∀ off, settledHandOff graphNode.type (.ok settled) = some off →
      Wakeable now { st with nodes := off.apply env now }) (token : ℕ) (draw : ℚ) :
    Awake (followUp env now draw args.row
      (completeExecution env now token args.row (handOn env now graphNode.type settled))) := by
  obtain ⟨run, hcomplete⟩ := h.completeExecution_eq token
  rw [hcomplete]
  have hcompleted : ((handOn env now graphNode.type settled).state.nodes.modify args.row
      (completeNode (some token))).find args.row = some (completeNode (some token) row') := by
    rw [find_modify_self, h.find_handOn]
    rfl
  obtain ⟨hsame, hdue⟩ := completeNode_wakeUp (some token) row'
  refine followUp_awake (h.pendingDue hpending token) hcompleted fun hretry hrunning ↦ ?_
  rw [hsame, hdue] at hretry
  rcases h.settled.outcome with ⟨-, hfailed | ⟨hready, hnext, -⟩⟩ | ⟨-, hwaiting, -⟩ | ⟨hfinish, -⟩
  · -- a failed row ends the run
    exact absurd (any_status_iff.mpr ⟨args.row, _, hcompleted, hsame.trans hfailed⟩)
      (not_hasFailure_of_running hrunning)
  · exact absurd ⟨hready, hnext⟩ hretry
  · have hbusy : (completeNode (some token) row').status.isBusy := by
      rw [hsame, hwaiting]
      rfl
    exact fun _ ↦ .inr (.inl ⟨args.row, _, hcompleted, hbusy⟩)
  · obtain ⟨woken, hwoken, -⟩ := h.settled.outbox
    obtain ⟨done, finish⟩ := settled
    obtain rfl : finish = _ := hfinish
    exact (hwakes _ rfl).modify rfl (completeNode_wakeUp (some token)) ⟨woken, hwoken⟩

/-- A resume keeps the run awake when it advances, and not too early. -/
theorem ResumeEffect.awake {advances : Bool} {st' : EngineState} {handOff : Option HandOff}
    (h : ResumeEffect env now advances st handOff st') (hawake : Awake st)
    (hpending : PendingDue st.nodes)
    (hwakes : ∀ off, handOff = some off →
      advances ∧ Wakeable now { st with nodes := off.apply env now }) : Awake st' := by
  cases h with
  | unchanged => exact hawake
  | again => exact hawake.advance hpending
  | decided id row row' output waits handOff decided hdecided =>
    have hstatus' : row'.status ≠ .pending :=
      hdecided.proceeds.begun (by rw [hdecided.waiting]; decide)
    have hput : PendingDue (st.nodes.put id row') :=
      hpending.of_noneEnters (noneEnters_put hstatus')
    unfold completeResume
    dsimp only
    rcases hdecided.outcome with ⟨-, hfailed, hnodes, -⟩ | ⟨off, hsome, hoff, hid, -, -, hnodes, -⟩
    · -- a failed row ends the run
      have hfailure : runHasFailure decided.nodes := by
        rw [hnodes]
        exact any_status_iff.mpr
          ⟨id, row', find_put_self _ _ hdecided.find, hfailed⟩
      split_ifs with hrunning
      · have hnone := not_hasFailure_of_running hrunning.2
        exact absurd hfailure hnone
      · refine finalize_awake fun hrunning ↦ ?_
        have hnone := not_hasFailure_of_running hrunning
        exact absurd hfailure hnone
    · obtain ⟨hadvances, hwakeable⟩ := hwakes off hsome
      simp only [hadvances, true_and]
      refine finalize_advance_awake ?_ fun _ ↦ ?_
      · show PendingDue decided.nodes
        rw [hnodes]
        refine PendingDue.of_noneEnters ?_ (HandOff.noneEnters (by decide) (by decide) env now off)
        rw [hoff.nodes, hid]
        exact hput
      · have hsame : decided.outbox = st.outbox := hdecided.outbox
        unfold Wakeable EngineState.AdvanceInFlight at hwakeable ⊢
        dsimp only at hwakeable ⊢
        rw [hsame, hnodes]
        exact hwakeable

end Finish

/-! ### Transactions -/

section Transactions

variable {st' : EngineState}

theorem PendingDue.advance (h : PendingDue st.nodes) : PendingDue (advance env now st).nodes :=
  h.of_noneEnters (advance_noneEnters (by decide) (by decide) st)

theorem PendingDue.execute {args : ExecuteArgs} {token : ℕ} {worker : Option String}
    (h : PendingDue st.nodes) (hcall : executeClaimedNodeRun env now args token worker draw st = .ok st') :
    PendingDue st'.nodes := by
  have heffect := executeClaimedNodeRun_effect hcall
  generalize Op.handOff env now (.execute args token worker draw) st = off at heffect
  cases heffect with
  | aborted =>
    refine h.of_noneEnters (noneEnters_modify fun row _ ↦ ?_)
    by_cases hstatus : row.status = .queued ∨ row.status = .running ∨ row.status = .ready
    · refine .inr ?_
      have hsucceeded : row.status ≠ .succeeded := by
        rcases hstatus with hs | hs | hs <;> rw [hs] <;> decide
      rw [if_pos hstatus]
      unfold abort
      dsimp only
      rw [if_neg hsucceeded, (completeNode_wakeUp _ _).1]
      exact NodeStatus.noConfusion
    · exact .inl (if_neg hstatus)
  | rejected => exact h
  | missing row begun failed _ _ _ hfailed =>
    exact h.of_noneEnters (noneEnters_put (by rw [hfailed]; decide))
  | ran row begun row' graphNode prepared settled hran =>
    obtain ⟨run, hcomplete⟩ := hran.completeExecution_eq token
    rw [hcomplete]
    have hcompleted := hran.pendingDue h token
    unfold followUp
    split
    · split_ifs
      · exact hcompleted
      · exact PendingDue.advance hcompleted
      · exact hcompleted
    · split_ifs
      · exact PendingDue.advance hcompleted
      · exact hcompleted

theorem PendingDue.resume {advances : Bool} {handOff : Option HandOff} (h : PendingDue st.nodes)
    (heffect : ResumeEffect env now advances st handOff st') : PendingDue st'.nodes := by
  cases heffect with
  | unchanged => exact h
  | again => exact h.advance
  | decided id row row' output waits handOff decided hdecided =>
    have hput : PendingDue (st.nodes.put id row') :=
      h.of_noneEnters (noneEnters_put (hdecided.proceeds.begun (by rw [hdecided.waiting]; decide)))
    have hnodes : PendingDue decided.nodes := by
      rcases hdecided.outcome with ⟨-, -, hnodes, -⟩ | ⟨off, -, hoff, hid, -, -, hnodes, -⟩
      · rw [hnodes]
        exact hput
      · rw [hnodes]
        refine PendingDue.of_noneEnters ?_ (HandOff.noneEnters (by decide) (by decide) env now off)
        rw [hoff.nodes, hid]
        exact hput
    unfold completeResume
    dsimp only
    split_ifs
    · exact PendingDue.advance hnodes
    · exact hnodes

theorem PendingDue.resetStep {nodeId : String} (h : PendingDue t)
    (hstep : ResetStep env.graph nodeId t t') : PendingDue t' := by
  obtain ⟨id, row, hlast, -⟩ := hstep
  intro other row' hrow' hpending
  rw [find_modify] at hrow'
  split_ifs at hrow'
  · obtain ⟨old, hold, rfl⟩ := map_eq_some_iff.mp hrow'
    unfold resetDescendantToPending at hpending ⊢
    split_ifs with hsucceeded
    · rw [if_pos hsucceeded] at hpending
      exact h other old hold hpending
    · rfl
  · exact h other row' hrow' hpending

/-- A retried row is claimed at once. -/
theorem retried_wakeable {id : RowId} {row : NodeRun} (hrow : st.nodes.find id = some row) :
    Wakeable now { st with nodes := st.nodes.modify id resetFailedToReady } := by
  refine fun _ ↦ .inr (.inr ⟨id, row.resetFailedToReady, ?_, rfl, rfl⟩)
  dsimp only
  rw [find_modify_self, hrow]
  rfl

/-- A row of a node is not reset by the retry from that node unless the node is its own descendant. -/
theorem find_resets {nodeId : String} {id : RowId} {row : NodeRun}
    (hacyclic : ¬ env.graph.Ancestor nodeId nodeId) (hid : id.nodeId = nodeId)
    (hrow : t.find id = some row) (h : ReflTransGen (ResetStep env.graph nodeId) t t') :
    t'.find id = some row := by
  refine invariant (P := fun t : NodeTable ↦ t.find id = some row) ?_ h hrow
  rintro a b hfind ⟨other, current, -, hancestor⟩
  have hne : id ≠ other := by
    rintro rfl
    exact hacyclic (hid ▸ hancestor)
  rw [find_modify_of_ne _ _ hne]
  exact hfind

theorem recoverStale_awake (hawake : Awake st) (limit : ℕ) (draw : RowId → ℚ) :
    Awake (recoverStale env now limit draw st) := by
  unfold recoverStale
  dsimp only
  split_ifs
  · exact hawake
  · exact fun _ _ ↦ .inl ⟨_, mem_append_right _ mem_cons_self, rfl⟩

theorem PendingDue.recoverStale (h : PendingDue st.nodes) (limit : ℕ) (draw : RowId → ℚ) :
    PendingDue (recoverStale env now limit draw st).nodes := by
  unfold Workflows.recoverStale
  dsimp only
  split_ifs
  · exact h
  · refine foldl_invariant (P := PendingDue) (fun t id _ ht ↦ ?_) h
    refine ht.of_noneEnters (noneEnters_modify fun row _ ↦ .inr ?_)
    rcases (recover_status env now (draw id) row).2.2 with hs | ⟨hs, -⟩ <;> rw [hs] <;> decide

theorem PendingDue.cancel (h : PendingDue st.nodes) :
    PendingDue (st.nodes.mapValues fun _ row ↦ row.cancel now) := by
  refine h.of_noneEnters (noneEnters_mapValues fun _ row _ ↦ ?_)
  unfold NodeRun.cancel
  split
  · exact .inl rfl
  · exact .inl rfl
  · rename_i hcancelled
    exact .inr (by rw [show row.status = .cancelled from hcancelled]; decide)
  · exact .inr NodeStatus.noConfusion

variable {op : Op}

/-- A transaction keeps the run awake unless an advance of it comes too early. -/
theorem Op.apply_awake (hpending : PendingDue st.nodes) (hawake : op ≠ .advance → Awake st)
    (hwakes : WakesUp env now op st) (happly : op.apply env now st = .ok st') :
    Awake st' ∧ PendingDue st'.nodes := by
  cases op with
  | advance =>
    rw [← ok.inj happly]
    exact ⟨advance_awake hpending hwakes, hpending.advance⟩
  | execute args token worker draw =>
    rw [Op.apply] at happly
    refine ⟨?_, hpending.execute happly⟩
    have heffect := executeClaimedNodeRun_effect happly
    have hwakesUp : ∀ off, Op.handOff env now (.execute args token worker draw) st = some off →
        Wakeable now { st with nodes := off.apply env now } := fun off hoff ↦ (hwakes off hoff).2
    generalize Op.handOff env now (.execute args token worker draw) st = off at heffect hwakesUp
    cases heffect with
    | aborted hterminal => exact fun hopen ↦ absurd hterminal hopen
    | rejected => exact hawake (by simp)
    | missing row begun failed _ hrow _ hfailed =>
      have hfailure : runHasFailure (st.nodes.put args.row failed) :=
        any_status_iff.mpr ⟨args.row, failed, find_put_self _ _ hrow, hfailed⟩
      refine finalize_awake fun hrunning ↦ ?_
      have hnone := not_hasFailure_of_running hrunning
      exact absurd hfailure hnone
    | ran row begun row' graphNode prepared settled hran => exact hran.awake hpending hwakesUp token draw
  | resume token outcome decision advances =>
    rw [Op.apply] at happly
    have heffect := resumeWaitingNode_effect happly
    exact ⟨heffect.awake (hawake (by simp)) hpending hwakes, hpending.resume heffect⟩
  | resolveEvent eventKey payload =>
    obtain ⟨⟨_, waits⟩, -, rfl⟩ := resolveEvent_eq_ok happly
    exact ⟨hawake (by simp), hpending⟩
  | resumeRun eventKey decision advances =>
    rw [Op.apply] at happly
    obtain ⟨token, waits, hresolved, hcall⟩ := resumeRun_eq_ok happly
    have heffect := resumeWaitingNode_effect hcall
    have hoff : Op.handOff env now (.resumeRun eventKey decision advances) st =
        tokenHandOff env now token "received" (eventDecision decision) { st with waits := waits } := by
      simp only [Op.handOff, hresolved]
    have hawake' : Awake { st with waits := waits } := hawake (by simp)
    have hpending' : PendingDue ({ st with waits := waits } : EngineState).nodes := hpending
    exact ⟨heffect.awake hawake' hpending' fun off hsome ↦ hwakes off (hoff.trans hsome),
      hpending'.resume heffect⟩
  | recover limit draw =>
    rw [← ok.inj happly]
    exact ⟨recoverStale_awake (hawake (by simp)) limit draw, hpending.recoverStale limit draw⟩
  | wake limit =>
    rw [← ok.inj happly]
    refine ⟨fun hopen hready ↦ ?_, hpending⟩
    rcases hawake (by simp) hopen hready with ⟨envelope, hmem, hadvance⟩ | hbusy
    · exact .inl ⟨envelope, mem_append_left _ hmem, hadvance⟩
    · exact .inr hbusy
  | cancel =>
    rw [Op.apply] at happly
    rcases cancelRun_eq_ok happly with rfl | ⟨-, hcancelled, hnodes, -⟩
    · exact ⟨hawake (by simp), hpending⟩
    · refine ⟨fun hopen ↦ absurd (by rw [hcancelled]; decide) hopen, ?_⟩
      rw [hnodes]
      exact hpending.cancel
  | retryNode nodeId =>
    rw [Op.apply] at happly
    obtain ⟨-, id, row, hrow, -, rfl⟩ := retryNode_eq_ok happly
    have hreset : PendingDue (st.nodes.modify id resetFailedToReady) :=
      hpending.of_noneEnters (noneEnters_modify fun _ _ ↦ .inr NodeStatus.noConfusion)
    have hwakeable : Wakeable now
        { st with nodes := st.nodes.modify id resetFailedToReady, run := st.run.reopen } :=
      retried_wakeable hrow
    exact ⟨advance_awake hreset hwakeable, PendingDue.advance hreset⟩
  | retryFromNode nodeId =>
    rw [Op.apply] at happly
    obtain ⟨-, id, row, hlast, -, rfl⟩ := retryFromNode_eq_ok happly
    obtain ⟨hrow, hid⟩ := lastRow_eq_some hlast
    have hreset : PendingDue (st.nodes.modify id resetFailedToReady) :=
      hpending.of_noneEnters (noneEnters_modify fun _ _ ↦ .inr NodeStatus.noConfusion)
    have hresets := resetLoop_steps env.graph nodeId (st.nodes.modify id resetFailedToReady)
    have hdescendants : PendingDue (resetLoop env.graph nodeId
        (st.nodes.modify id resetFailedToReady)).1.2 :=
      invariant (fun _ _ ht ↦ ht.resetStep) hresets hreset
    have hready : (st.nodes.modify id resetFailedToReady).find id =
        some row.resetFailedToReady := by
      rw [find_modify_self, hrow]
      rfl
    have hwakeable : Wakeable now
        { st with
          nodes := (resetLoop env.graph nodeId
            (st.nodes.modify id resetFailedToReady)).1.2
          run := st.run.reopen } := fun _ ↦
      .inr (.inr ⟨id, _, find_resets hwakes hid hready hresets, rfl, rfl⟩)
    exact ⟨advance_awake hdescendants hwakeable, PendingDue.advance hdescendants⟩

theorem Op.run_awake (hpending : PendingDue st.nodes) (hawake : op ≠ .advance → Awake st)
    (hwakes : WakesUp env now op st) :
    Awake (op.run env now st) ∧ PendingDue (op.run env now st).nodes := by
  unfold Op.run
  split
  · rename_i st' happly
    exact Op.apply_awake hpending hawake hwakes happly
  · rename_i exc happly
    refine ⟨hawake ?_, hpending⟩
    rintro rfl
    exact absurd happly (by simp [Op.apply])

/-- A message that is delivered was not the one that wakes the run, unless it is an advance. -/
theorem Awake.consume (h : Awake st) (i : Fin st.outbox.length)
    (hop : op.Handles (st.outbox.get i).message) (hne : op ≠ .advance) :
    Awake { st with outbox := st.outbox.eraseIdx i } := by
  intro hopen hready
  rcases h hopen hready with ⟨envelope, hmem, hadvance⟩ | hbusy
  · refine .inl ⟨envelope, ?_, hadvance⟩
    obtain ⟨j, hj, hget⟩ := getElem_of_mem hmem
    refine mem_eraseIdx_iff_getElem.mpr ⟨j, hj, ?_, hget⟩
    rintro rfl
    have hadvances : op.Handles .advance := by
      rw [← hadvance, ← hget]
      exact hop
    cases op with
    | advance => exact hne rfl
    | _ => exact hadvances
  · exact .inr hbusy

end Transactions

/-! ### Runs -/

/-- A started run is awake when the start has claimed the roots or sent the advance that will. -/
theorem startRun_awake {mode : StartMode} (hmode : mode ≠ .idle) (triggerPayload snapshot : JsonObject) :
    Awake (startRun env now mode triggerPayload snapshot) ∧
      PendingDue (startRun env now mode triggerPayload snapshot).nodes := by
  have hdue : ∀ id row, (startTable env.graph).find id = some row → row.nextAttemptAt = none := by
    intro id row hrow
    rw [find_startTable] at hrow
    split_ifs at hrow
    obtain ⟨node, -, rfl⟩ := map_eq_some_iff.mp hrow
    rfl
  have hpending : PendingDue (startTable env.graph) := fun id row hrow _ ↦ hdue id row hrow
  cases mode with
  | inline =>
    refine ⟨advance_awake hpending ?_, PendingDue.advance hpending⟩
    rintro ⟨id, row, hrow, hready⟩
    refine .inr (.inr ⟨id, row, hrow, hready, ?_⟩)
    unfold isDue
    rw [hdue id row hrow]
  | enqueued =>
    exact ⟨fun _ _ ↦ .inl ⟨_, mem_append_right _ mem_cons_self, rfl⟩, hpending⟩
  | idle => exact absurd rfl hmode

/-- In every run in which no advance comes too early, no wake-up is lost. Assumes: the start advances
the run or sends an advance. -/
theorem no_lost_wakeup {mode : StartMode} (hmode : mode ≠ .idle) {triggerPayload snapshot : JsonObject}
    {st : EngineState} (hrun : ReflTransGen (Step env (WakesUp env))
      (startRun env now mode triggerPayload snapshot) st) : NoLostWakeUp st := by
  refine Awake.noLostWakeUp (invariant
    (P := fun st : EngineState ↦ Awake st ∧ PendingDue st.nodes) ?_ hrun
    (startRun_awake hmode triggerPayload snapshot)).1
  rintro st st' ⟨hawake, hpending⟩ hstep
  cases hstep with
  | call now op _ hwakes => exact Op.run_awake hpending (fun _ ↦ hawake) hwakes
  | deliver now op _ i _ hop hwakes =>
    have hpending' : PendingDue ({ st with outbox := st.outbox.eraseIdx i } : EngineState).nodes :=
      hpending
    exact Op.run_awake hpending' (hawake.consume i hop) hwakes

/-! ### One retry -/

/-- The operation handles an advance or an execution. -/
def Op.accepts : Op → Message → Bool
  | .advance, .advance => true
  | .execute args token _ _, .execute id claimToken => args.row = id ∧ token = claimToken
  | _, _ => false

theorem Op.handles_of_accepts {op : Op} {message : Message} (h : op.accepts message) :
    op.Handles message := by
  unfold Op.accepts at h
  split at h
  · exact trivial
  · simpa [Op.Handles] using h
  · simp at h

def Op.deliverFirst (env : EngineEnv) (now : Time) (op : Op) (st : EngineState) : EngineState :=
  op.run env now { st with outbox := st.outbox.eraseIdx 0 }

theorem step_deliverFirst {allowed : Time → Op → EngineState → Prop} {op : Op}
    (hfirst : st.outbox.head?.any fun envelope ↦ envelope.earliest ≤ now ∧ op.accepts envelope.message)
    (hallowed : allowed now op { st with outbox := st.outbox.eraseIdx 0 }) :
    Step env allowed st (op.deliverFirst env now st) := by
  cases houtbox : st.outbox with
  | nil =>
    rw [houtbox] at hfirst
    simp at hfirst
  | cons envelope rest =>
    rw [houtbox] at hfirst
    have hmessage : envelope.earliest ≤ now ∧ op.accepts envelope.message := by simpa using hfirst
    have hlength : 0 < st.outbox.length := by
      rw [houtbox]
      exact Nat.succ_pos _
    have hget : st.outbox.get ⟨0, hlength⟩ = envelope := by
      simp [houtbox]
    exact .deliver now op st ⟨0, hlength⟩ (by rw [hget]; exact hmessage.1)
      (by rw [hget]; exact Op.handles_of_accepts hmessage.2) hallowed

/-- The environment of the runs below. -/
def triggerEnv : EngineEnv := catalogueEnv triggerGraph repairedGlobals

def triggerStarted : EngineState := startRun triggerEnv 0 .enqueued [] []

def triggerQueued : EngineState := Op.advance.deliverFirst triggerEnv 0 triggerStarted

/-- The execution of the trigger times out; `draw` is the jitter of the row and `countdown` that of the
message. -/
def triggerTimesOut (draw countdown : ℚ) : Op :=
  .execute
    { row := ⟨"t", ""⟩
      outcome := .error { className := "TimeoutError", message := "timeout" }
      draw := draw } 0 none countdown

def timedOutRun (draw countdown : ℚ) : EngineState :=
  (triggerTimesOut draw countdown).deliverFirst triggerEnv 0 triggerQueued

/-- The next advance is delivered two seconds later. -/
def retriedRun (draw countdown : ℚ) : EngineState :=
  Op.advance.deliverFirst triggerEnv 2000000 (timedOutRun draw countdown)

theorem wakeable_of_due (id : RowId)
    (h : (st.nodes.find id).map (fun row ↦ (row.status, row.isDue now)) = some (.ready, true)) :
    Wakeable now st := by
  obtain ⟨row, hrow, hboth⟩ := map_eq_some_iff.mp h
  rw [Prod.mk.injEq] at hboth
  exact fun _ ↦ .inr (.inr ⟨id, row, hrow, hboth.1, hboth.2⟩)

/-- An execution that hands nothing off does not advance too early. -/
theorem wakesUp_execute_of_isNone {args : ExecuteArgs} {token : ℕ} {worker : Option String}
    (h : (Op.handOff env now (.execute args token worker draw) st).isNone) :
    WakesUp env now (.execute args token worker draw) st := by
  intro off hoff
  rw [hoff] at h
  simp at h

/-- The two draws are the same: the message comes when the row is due, and the trigger is claimed
again. -/
theorem retriedRun_awake : NoLostWakeUp (retriedRun 0 0) := by
  have hqueued : Step triggerEnv (WakesUp triggerEnv) triggerStarted triggerQueued :=
    step_deliverFirst (by decide +kernel) (wakeable_of_due ⟨"t", ""⟩ (by decide +kernel))
  have htimedOut : Step triggerEnv (WakesUp triggerEnv) triggerQueued (timedOutRun 0 0) :=
    step_deliverFirst (by decide +kernel) (wakesUp_execute_of_isNone (by decide +kernel))
  have hretried : Step triggerEnv (WakesUp triggerEnv) (timedOutRun 0 0) (retriedRun 0 0) :=
    step_deliverFirst (by decide +kernel) (wakeable_of_due ⟨"t", ""⟩ (by decide +kernel))
  have hstarted : StartMode.enqueued ≠ .idle := by decide
  exact no_lost_wakeup hstarted (((single hqueued).tail htimedOut).tail hretried)

/-- The row is due after 2.4 seconds and the message comes after two. The trigger stays `READY` for
ever: nothing is in flight and nothing is busy. -/
theorem early_advance_strands :
    graphValid catalogue (fun _ ↦ []) triggerGraph {} ∧
      ReflTransGen (Step triggerEnv anyOp) (startRun triggerEnv 0 .enqueued [] []) (retriedRun 1 (-1)) ∧
      ¬ NoLostWakeUp (retriedRun 1 (-1)) := by
  have hqueued : Step triggerEnv anyOp triggerStarted triggerQueued :=
    step_deliverFirst (by decide +kernel) trivial
  have htimedOut : Step triggerEnv anyOp triggerQueued (timedOutRun 1 (-1)) :=
    step_deliverFirst (by decide +kernel) trivial
  have hretried : Step triggerEnv anyOp (timedOutRun 1 (-1)) (retriedRun 1 (-1)) :=
    step_deliverFirst (by decide +kernel) trivial
  refine ⟨by decide +kernel, ((single hqueued).tail htimedOut).tail hretried, ?_⟩
  intro hwoken
  have hempty : (retriedRun 1 (-1)).outbox.isEmpty := by decide +kernel
  have hentries : ∀ entry ∈ (retriedRun 1 (-1)).nodes.entries, entry.2.status = .ready := by
    decide +kernel
  have hfound : ((retriedRun 1 (-1)).nodes.find ⟨"t", ""⟩).isSome := by decide +kernel
  have hready : ∀ id row, (retriedRun 1 (-1)).nodes.find id = some row → row.status = .ready :=
    fun id row hrow ↦ hentries _ ((find_eq_some_iff _ _ _).mp hrow)
  obtain ⟨row, hrow⟩ := isSome_iff_exists.mp hfound
  refine hwoken (by decide +kernel) (List.isEmpty_iff.mp hempty) (fun id row hrow ↦ ?_) _ row hrow
    (hready _ row hrow)
  rw [hready id row hrow]
  decide

end ContentGenerator.Workflows

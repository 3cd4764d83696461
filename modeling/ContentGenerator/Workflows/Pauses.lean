import ContentGenerator.Workflows.Runs

/-!
# Paused rows under the operations

What the operations do to the rows that wait and to the resume tokens. `Unpauses` is the relation: no
row starts to wait, a token is never moved to another row, and a row at rest is left exactly as it is
unless it is one of the rows released. Every part of the engine but the pause itself refines it: the
promotions and claims of `advance`, the hand-offs, cancellation, recovery and the two retries.

`resumeWaitingNode_eq_ok` and `resumeWaitingNode_of_waiting` say what a call of `resume_waiting_node` that
returned has done, and what a call on a waiting row comes to.
-/

namespace ContentGenerator.Workflows

open Lib Relation List Option NodeTable Prod

variable {begun row'' row row' : NodeRun} {draw : ℚ} {f : RowId → NodeRun → NodeRun} {fanOut : Bool}
  {g : WorkflowGraph} {handOff : Option HandOff} {node : GraphNode} {outcome rawOutcome source : String}
  {token : ℕ} {t₀ t t' : NodeTable} {id : RowId} {keys : List String} {st : EngineState} {status : NodeStatus}
  {env : EngineEnv} {now : Time}

/-- The node types that `resume_waiting_node` resolves a wait for. -/
def waitTypes : List String := ["delay", "wait", "approval"]

/-! ### The relation -/

/-- The row is neither to be promoted nor claimed nor executed: it waits for a decision or is over. -/
def NodeStatus.isAtRest (status : NodeStatus) : Bool :=
  ¬ (status.isSkippable ∨ status.isClaimed)

/-- What a write does to a row that waits or may be resumed: unless the row is released, a row at rest
stays as it is; no row starts to wait, and no token is put on it. -/
structure NodeRun.Unpauses (released : Prop) (row row' : NodeRun) : Prop where
  kept : row.status.isAtRest → ¬ released → row' = row
  waiting : row'.status = .waiting → row' = row
  resumeToken : ∀ token, row'.resumeToken = some token → row.resumeToken = some token
  nodeType : row'.nodeType = row.nodeType

theorem NodeRun.Unpauses.refl (released : Prop) (row : NodeRun) : row.Unpauses released row :=
  ⟨fun _ _ ↦ rfl, fun _ ↦ rfl, fun _ h ↦ h, rfl⟩

variable {decision : JsonObject} {advances : Bool} {st' : EngineState} {args : ExecuteArgs}

/-- A write to a row that is not at rest and does not start to wait. -/
theorem NodeRun.Unpauses.of_active {released : Prop}
    (hstatus : ¬ row.status.isAtRest) (hstatus' : row'.status ≠ .waiting)
    (htoken : row'.resumeToken = row.resumeToken) (htype : row'.nodeType = row.nodeType) :
    row.Unpauses released row' :=
  ⟨fun h ↦ absurd h hstatus, fun h ↦ absurd h hstatus', fun _ h ↦ htoken ▸ h, htype⟩

theorem NodeStatus.not_isAtRest_of_isSkippable (h : status.isSkippable) :
    ¬ status.isAtRest := by
  revert h
  cases status <;> decide

theorem NodeStatus.not_isAtRest_of_isClaimed (h : status.isClaimed) :
    ¬ status.isAtRest := by
  revert h
  cases status <;> decide

theorem NodeRun.Unpauses.trans {released : Prop}
    (h : row.Unpauses released row') (h' : row'.Unpauses released row'') :
    row.Unpauses released row'' where
  kept := by
    intro hrest hkept
    have hsame := h.kept hrest hkept
    rw [h'.kept (by rwa [hsame]) hkept, hsame]
  waiting := by
    intro hwaiting
    have hsame := h'.waiting hwaiting
    rw [hsame] at hwaiting
    rw [hsame, h.waiting hwaiting]
  resumeToken := fun token htoken ↦ h.resumeToken token (h'.resumeToken token htoken)
  nodeType := h'.nodeType.trans h.nodeType

/-- The same on a table: the rows that exist are written so, and a row that is created neither waits
nor has a token. -/
structure Unpauses (released : RowId → Prop) (t t' : NodeTable) : Prop where
  kept : ∀ id row, t.find id = some row →
    ∃ row', t'.find id = some row' ∧ row.Unpauses (released id) row'
  created : ∀ id row', t.find id = none → t'.find id = some row' →
    row'.status ≠ .waiting ∧ row'.resumeToken = none

section Table

variable {released : RowId → Prop}

theorem Unpauses.refl (released : RowId → Prop) (t : NodeTable) : Unpauses released t t :=
  ⟨fun _ row hrow ↦ ⟨row, hrow, .refl _ row⟩, fun _ _ hnone hsome ↦
    absurd (hnone.symm.trans hsome) (by simp)⟩

theorem Unpauses.trans {t'' : NodeTable} (h : Unpauses released t t')
    (h' : Unpauses released t' t'') : Unpauses released t t'' where
  kept := by
    intro id row hrow
    obtain ⟨row', hrow', hstep⟩ := h.kept id row hrow
    obtain ⟨row'', hrow'', hstep'⟩ := h'.kept id row' hrow'
    exact ⟨row'', hrow'', hstep.trans hstep'⟩
  created := by
    intro id row'' hnone hrow''
    cases hmiddle : t'.find id with
    | none => exact h'.created id row'' hmiddle hrow''
    | some row' =>
      obtain ⟨hstatus, htoken⟩ := h.created id row' hnone hmiddle
      obtain ⟨last, hlast, hstep⟩ := h'.kept id row' hmiddle
      obtain rfl := mem_unique hrow'' hlast
      refine ⟨fun hwaiting ↦ ?_, ?_⟩
      · rw [hstep.waiting hwaiting] at hwaiting
        exact hstatus hwaiting
      · cases hlastToken : row''.resumeToken with
        | none => rfl
        | some token =>
          rw [hstep.resumeToken token hlastToken] at htoken
          simp at htoken

theorem Unpauses.of_steps {r : NodeTable → NodeTable → Prop}
    (hr : ∀ a b, r a b → Unpauses released a b) (h : ReflTransGen r t t') :
    Unpauses released t t' := by
  induction h with
  | refl => exact .refl _ _
  | tail _ hstep ih => exact ih.trans (hr _ _ hstep)

/-- A row of the later table that waits was there before. -/
theorem Unpauses.find_of_waiting (h : Unpauses released t t')
    (hrow' : t'.find id = some row') (hwaiting : row'.status = .waiting) :
    t.find id = some row' := by
  cases hrow : t.find id with
  | none => exact absurd hwaiting (h.created id row' hrow hrow').1
  | some row =>
    obtain ⟨last, hlast, hstep⟩ := h.kept id row hrow
    obtain rfl := mem_unique hrow' hlast
    rw [hstep.waiting hwaiting]

theorem Unpauses.find_of_kept (h : Unpauses released t t')
    (hrow : t.find id = some row) (hrest : row.status.isAtRest) (hkept : ¬ released id) :
    t'.find id = some row := by
  obtain ⟨row', hrow', hstep⟩ := h.kept id row hrow
  rw [hrow', hstep.kept hrest hkept]

/-- A token of the later table was on the same row before. -/
theorem Unpauses.find_of_token (h : Unpauses released t t')
    (hrow' : t'.find id = some row') (htoken : row'.resumeToken = some token) :
    ∃ row, t.find id = some row ∧ row.resumeToken = some token ∧ row.Unpauses (released id) row' := by
  cases hrow : t.find id with
  | none =>
    rw [(h.created id row' hrow hrow').2] at htoken
    simp at htoken
  | some row =>
    obtain ⟨last, hlast, hstep⟩ := h.kept id row hrow
    obtain rfl := mem_unique hrow' hlast
    exact ⟨row, rfl, hstep.resumeToken token htoken, hstep⟩

theorem unpauses_mapValues
    (h : ∀ id row, t.find id = some row → row.Unpauses (released id) (f id row)) :
    Unpauses released t (t.mapValues f) where
  kept := by
    intro id row hrow
    exact ⟨f id row, by rw [KeyedTable.find_mapValues, hrow]; rfl, h id row hrow⟩
  created := by
    intro id row' hnone hrow'
    rw [KeyedTable.find_mapValues, hnone] at hrow'
    simp at hrow'

theorem unpauses_modify {f : NodeRun → NodeRun}
    (h : ∀ row, t.find id = some row → row.Unpauses (released id) (f row)) :
    Unpauses released t (t.modify id f) := by
  refine unpauses_mapValues fun other row hrow ↦ ?_
  split_ifs with hother
  · subst hother
    exact h row hrow
  · exact .refl _ row

theorem unpauses_put (hrow : t.find id = some row)
    (h : row.Unpauses (released id) row') : Unpauses released t (t.put id row') := by
  refine unpauses_modify fun current hcurrent ↦ ?_
  obtain rfl := mem_unique hrow hcurrent
  exact h

/-! ### Hand-offs -/

theorem unpauses_of_promotes (h : Promotes g t t') : Unpauses released t t' := by
  obtain ⟨nodeId, id, row, hget, hpending, -⟩ := h
  refine unpauses_modify fun current hcurrent ↦ ?_
  obtain rfl := Option.some.inj ((get_eq_some hget).1.symm.trans hcurrent)
  exact .of_active (by rw [hpending]; decide) NodeStatus.noConfusion rfl rfl

theorem unpauses_of_unlockStep {skips : GraphEdge → Prop}
    (h : UnlockStep g skips t₀ t t') : Unpauses released t t' := by
  have hskip : ∀ (now : Time) (nodeId : String) (id : RowId) (row : NodeRun),
      t.get nodeId = some (id, row) → row.status.isSkippable →
        Unpauses released t (t.modify id (NodeRun.skip now)) := by
    intro now nodeId id row hget hskippable
    refine unpauses_modify fun current hcurrent ↦ ?_
    obtain rfl := Option.some.inj ((get_eq_some hget).1.symm.trans hcurrent)
    exact .of_active (NodeStatus.not_isAtRest_of_isSkippable hskippable) NodeStatus.noConfusion rfl
      rfl
  cases h with
  | promote h => exact unpauses_of_promotes h
  | skipTarget now edge id row _ hget hskippable => exact hskip now _ id row hget hskippable
  | skipJoin now nodeId id row hget hskippable _ _ => exact hskip now _ id row hget hskippable

theorem unpauses_of_spawns (h : Spawns node keys t t') :
    Unpauses released t t' where
  kept := by
    intro id row hrow
    by_cases hskippable : row.status.isSkippable
    · obtain ⟨row', hrow', hstatus⟩ := h.row_of_skippable hrow hskippable
      rcases h.origin id row' hrow' with ⟨hnone, -⟩ | ⟨old, hold, htype, htoken⟩
      · exact absurd (hnone.symm.trans hrow) (by simp)
      · obtain rfl := mem_unique hold hrow
        exact ⟨row', hrow',
          .of_active (NodeStatus.not_isAtRest_of_isSkippable hskippable) hstatus htoken htype⟩
    · exact ⟨row, h.find_of_not_skippable hrow hskippable, .refl _ row⟩
  created := by
    intro id row' hnone hrow'
    rcases h.origin id row' hrow' with ⟨-, hready, htoken⟩ | ⟨old, hold, -⟩
    · refine ⟨?_, htoken⟩
      rw [hready]
      decide
    · exact absurd (hnone.symm.trans hold) (by simp)

theorem unpauses_of_spawnStep
    (h : SpawnStep g source fanOut keys t t') : Unpauses released t t' := by
  cases h with
  | promote h => exact unpauses_of_promotes h
  | spawn edge node _ _ _ hspawns => exact unpauses_of_spawns hspawns

theorem HandOff.unpauses (env : EngineEnv) (now : Time) (h : HandOff) :
    Unpauses released h.nodes (h.apply env now) := by
  cases hkeys : h.spawnKeys env with
  | none => exact .of_steps (fun _ _ ↦ unpauses_of_unlockStep) (HandOff.apply_unlocks hkeys)
  | some keys => exact .of_steps (fun _ _ ↦ unpauses_of_spawnStep) (HandOff.apply_spawns hkeys)

end Table

/-! ### Advance -/

/-- A part of an operation that deals with neither waits nor resumes: the rows are written as
`Unpauses` says, the waits stay, and no resume message is sent. -/
structure KeepsPauses (released : RowId → Prop) (st st' : EngineState) : Prop where
  nodes : Unpauses released st.nodes st'.nodes
  waits : st'.waits = st.waits
  nextToken : st.nextToken ≤ st'.nextToken
  outbox : ∃ sent : List Envelope, st'.outbox = st.outbox ++ sent ∧
    ∀ envelope ∈ sent, ∀ token outcome decision, envelope.message ≠ .resume token outcome decision

section Advance

variable {released : RowId → Prop}

theorem KeepsPauses.refl (st : EngineState) : KeepsPauses released st st :=
  ⟨.refl _ _, rfl, le_rfl, [], by rw [append_nil], by simp⟩

theorem KeepsPauses.trans {st' st'' : EngineState} (h : KeepsPauses released st st')
    (h' : KeepsPauses released st' st'') : KeepsPauses released st st'' where
  nodes := h.nodes.trans h'.nodes
  waits := h'.waits.trans h.waits
  nextToken := h.nextToken.trans h'.nextToken
  outbox := by
    obtain ⟨sent, houtbox, hsent⟩ := h.outbox
    obtain ⟨sent', houtbox', hsent'⟩ := h'.outbox
    refine ⟨sent ++ sent', by rw [houtbox', houtbox, append_assoc], fun envelope hmem ↦ ?_⟩
    rcases mem_append.mp hmem with hold | hnew
    · exact hsent envelope hold
    · exact hsent' envelope hnew

/-- A write to the rows alone. -/
theorem KeepsPauses.of_nodes (run : Run)
    (h : Unpauses released st.nodes t) :
    KeepsPauses released st { st with nodes := t, run := run } :=
  ⟨h, rfl, le_rfl, [], by rw [append_nil], by simp⟩

theorem finalize_keepsPauses (st : EngineState) : KeepsPauses released st (st.finalize env now) :=
  .of_nodes _ (.refl _ _)

theorem sendAdvance_keepsPauses (earliest : Time) (st : EngineState) :
    KeepsPauses released st (st.sendAdvance earliest) where
  nodes := .refl _ _
  waits := rfl
  nextToken := le_rfl
  outbox := by
    refine ⟨_, rfl, fun envelope hmem token outcome decision h ↦ ?_⟩
    rw [mem_singleton] at hmem
    rw [hmem] at h
    simp at h

theorem claimReadyNode_unpauses {released : Prop} {runId : String} {lease : Time}
    (h : claimReadyNode runId lease now token id row = some row') : row.Unpauses released row' := by
  unfold claimReadyNode at h
  rw [ite_none_right_eq_some] at h
  obtain ⟨hready, hrow⟩ := h
  cases hrow
  exact .of_active (by rw [hready.1]; decide) NodeStatus.noConfusion rfl rfl

theorem claimAndEnqueue_keepsPauses (st : EngineState) (id : RowId) :
    KeepsPauses released st (claimAndEnqueue env now st id) := by
  unfold claimAndEnqueue
  split
  · exact .refl st
  · rename_i claimed hclaimed
    obtain ⟨row, hrow, hclaim⟩ := bind_eq_some_iff.mp hclaimed
    refine ⟨unpauses_put hrow (claimReadyNode_unpauses hclaim), rfl, Nat.le_succ _, _, rfl, ?_⟩
    intro envelope hmem token outcome decision h
    rw [mem_singleton] at hmem
    rw [hmem] at h
    simp at h

theorem claimPass_keepsPauses (st : EngineState) : KeepsPauses released st (claimPass env now st) := by
  unfold claimPass
  dsimp only
  refine foldl_invariant (P := fun acc ↦ KeepsPauses released st acc)
    (fun acc id _ hacc ↦ hacc.trans (claimAndEnqueue_keepsPauses acc id)) ?_
  refine .of_nodes st.run ?_
  split_ifs
  · exact .of_steps (fun _ _ ↦ unpauses_of_promotes) (promoteReady_steps (fun _ _ h ↦ h) st.nodes)
  · exact .refl _ _

theorem advance_keepsPauses (st : EngineState) : KeepsPauses released st (advance env now st) := by
  unfold advance
  split_ifs
  · exact .refl st
  · exact finalize_keepsPauses st
  · exact (claimPass_keepsPauses st).trans (finalize_keepsPauses _)

/-- `advance` leaves a row at rest alone. -/
theorem find_advance
    (hrow : st.nodes.find id = some row) (hrest : row.status.isAtRest) :
    (advance env now st).nodes.find id = some row := by
  have hkeeps : KeepsPauses (fun _ ↦ False) st (advance env now st) := advance_keepsPauses st
  exact hkeeps.nodes.find_of_kept hrow hrest not_false

theorem followUp_keepsPauses (draw : ℚ) (id : RowId) (st : EngineState) :
    KeepsPauses released st (followUp env now draw id st) := by
  unfold followUp
  split
  · split_ifs
    · exact sendAdvance_keepsPauses _ st
    · exact advance_keepsPauses st
    · exact .refl st
  · split_ifs
    · exact advance_keepsPauses st
    · exact .refl st

end Advance

/-! ### Statuses that no row gets -/

/-- No row gets the status, and a row that keeps it stays as it is. -/
def NoneEnters (status : NodeStatus) (t t' : NodeTable) : Prop :=
  ∀ id row', t'.find id = some row' → row'.status = status → t.find id = some row'

section NoneEnters

variable {t'' : NodeTable}

theorem NoneEnters.refl (status : NodeStatus) (t : NodeTable) : NoneEnters status t t :=
  fun _ _ hrow _ ↦ hrow

theorem NoneEnters.trans (h : NoneEnters status t t') (h' : NoneEnters status t' t'') :
    NoneEnters status t t'' :=
  fun id row hrow hstatus ↦ h id row (h' id row hrow hstatus) hstatus

theorem NoneEnters.of_steps {r : NodeTable → NodeTable → Prop}
    (hr : ∀ a b, r a b → NoneEnters status a b) (h : ReflTransGen r t t') : NoneEnters status t t' :=
  ReflTransGen.invariant (P := NoneEnters status t) (fun a b hrun hstep ↦ hrun.trans (hr a b hstep))
    h (.refl status t)

/-- A rewrite that gives no row the status. -/
theorem noneEnters_mapValues
    (h : ∀ id row, t.find id = some row → f id row = row ∨ (f id row).status ≠ status) :
    NoneEnters status t (t.mapValues f) := by
  intro id row' hrow' hstatus'
  rw [KeyedTable.find_mapValues] at hrow'
  obtain ⟨row, hrow, rfl⟩ := map_eq_some_iff.mp hrow'
  rcases h id row hrow with hsame | hstatus
  · rw [hsame]
    exact hrow
  · exact absurd hstatus' hstatus

theorem noneEnters_modify {f : NodeRun → NodeRun}
    (h : ∀ row, t.find id = some row → f row = row ∨ (f row).status ≠ status) :
    NoneEnters status t (t.modify id f) := by
  refine noneEnters_mapValues fun other row hrow ↦ ?_
  split_ifs with hother
  · subst hother
    exact h row hrow
  · exact .inl rfl

theorem noneEnters_put (h : row'.status ≠ status) :
    NoneEnters status t (t.put id row') :=
  noneEnters_modify fun _ _ ↦ .inr h

theorem noneEnters_of_promotes (hready : status ≠ .ready) (h : Promotes g t t') :
    NoneEnters status t t' := by
  cases h with
  | intro => exact noneEnters_modify fun _ _ ↦ .inr hready.symm

theorem noneEnters_of_unlockStep (hready : status ≠ .ready) (hskipped : status ≠ .skipped)
    {skips : GraphEdge → Prop} (h : UnlockStep g skips t₀ t t') :
    NoneEnters status t t' := by
  cases h with
  | promote h => exact noneEnters_of_promotes hready h
  | skipTarget | skipJoin => exact noneEnters_modify fun _ _ ↦ .inr hskipped.symm

theorem noneEnters_of_spawns (hready : status ≠ .ready) (hskipped : status ≠ .skipped)
    (h : Spawns node keys t t') : NoneEnters status t t' := by
  rintro ⟨nodeId, key⟩ row' hrow' hstatus
  by_cases hnode : nodeId = node.id
  · subst hnode
    by_cases hkey : key = ""
    · subst hkey
      rcases h.placeholder with hsame | ⟨old, last, -, -, hlast, hsuperseded, -⟩
      · rw [← hsame]
        exact hrow'
      · obtain rfl := mem_unique hrow' hlast
        simp [NodeRun.isSuperseded, hstatus, hskipped] at hsuperseded
    · by_cases hmem : key ∈ keys
      · obtain ⟨last, hlast, hcase⟩ := h.keyed key hmem
        obtain rfl := mem_unique hrow' hlast
        rcases hcase with ⟨hsame, -⟩ | ⟨hkeyed, -⟩
        · exact hsame
        · exact absurd (hstatus.symm.trans hkeyed) hready
      · rw [← h.unkeyed key hkey hmem]
        exact hrow'
  · rw [← h.other _ hnode]
    exact hrow'

theorem noneEnters_of_spawnStep (hready : status ≠ .ready) (hskipped : status ≠ .skipped)
    (h : SpawnStep g source fanOut keys t t') :
    NoneEnters status t t' := by
  cases h with
  | promote h => exact noneEnters_of_promotes hready h
  | spawn edge node _ _ _ hspawns => exact noneEnters_of_spawns hready hskipped hspawns

theorem HandOff.noneEnters (hready : status ≠ .ready) (hskipped : status ≠ .skipped) (env : EngineEnv)
    (now : Time) (h : HandOff) : NoneEnters status h.nodes (h.apply env now) := by
  cases hkeys : h.spawnKeys env with
  | none =>
    exact .of_steps (fun _ _ ↦ noneEnters_of_unlockStep hready hskipped) (HandOff.apply_unlocks hkeys)
  | some keys =>
    exact .of_steps (fun _ _ ↦ noneEnters_of_spawnStep hready hskipped) (HandOff.apply_spawns hkeys)

/-- A claim makes a row `QUEUED` and nothing else. -/
theorem claims_noneEnters (hstatus : status ≠ .queued) (ids : List RowId)
    (st : EngineState) :
    NoneEnters status st.nodes (ids.foldl (claimAndEnqueue env now) st).nodes := by
  refine foldl_invariant (P := fun acc : EngineState ↦ NoneEnters status st.nodes acc.nodes) ?_
    (.refl status _)
  intro acc id _ hacc
  refine hacc.trans ?_
  unfold claimAndEnqueue
  split
  · exact .refl status _
  · rename_i claimed hclaimed
    obtain ⟨row, -, hclaim⟩ := bind_eq_some_iff.mp hclaimed
    unfold claimReadyNode at hclaim
    rw [ite_none_right_eq_some] at hclaim
    refine noneEnters_put ?_
    rw [← Option.some.inj hclaim.2]
    exact hstatus.symm

theorem advance_noneEnters (hready : status ≠ .ready) (hqueued : status ≠ .queued)
    (st : EngineState) : NoneEnters status st.nodes (advance env now st).nodes := by
  unfold advance
  split_ifs
  · exact .refl _ _
  · exact .refl _ _
  · show NoneEnters status st.nodes (claimPass env now st).nodes
    unfold claimPass
    dsimp only
    refine NoneEnters.trans ?_ (claims_noneEnters hqueued _ _)
    dsimp only
    split_ifs
    · exact .of_steps (fun _ _ ↦ noneEnters_of_promotes hready) (promoteReady_steps (fun _ _ h ↦ h) st.nodes)
    · exact .refl _ _

end NoneEnters

/-! ### Resumes -/

/-- What a resume that returned has done: nothing, one more `advance` for a row that has succeeded, or
the decision on a waiting row. -/
theorem resumeWaitingNode_eq_ok
    (h : resumeWaitingNode env now token rawOutcome decision advances st = .ok st') :
    pyLower (pyStrip rawOutcome) ∈ successOutcomes ++ failOutcomes ∧
      ∃ entry, st.nodes.byResumeToken token = some entry ∧
        ((entry.2.status ≠ .waiting ∧
            (st' = st ∨ (entry.2.status = .succeeded ∧ st' = advance env now st))) ∨
          (entry.2.status = .waiting ∧
            resumeRow env now token (pyLower (pyStrip rawOutcome)) decision advances entry.1 entry.2
              st = .ok st')) := by
  unfold resumeWaitingNode at h
  dsimp only at h
  by_cases hvalid : pyLower (pyStrip rawOutcome) ∈ successOutcomes ++ failOutcomes
  · rw [if_neg (not_not.mpr hvalid)] at h
    refine ⟨hvalid, ?_⟩
    cases hentry : st.nodes.byResumeToken token with
    | none =>
      rw [hentry] at h
      simp at h
    | some entry =>
      rw [hentry] at h
      refine ⟨entry, rfl, ?_⟩
      by_cases hwaiting : entry.2.status = .waiting
      · refine .inr ⟨hwaiting, ?_⟩
        simpa only [hwaiting, reduceCtorEq, false_and, if_false, ne_eq, not_true_eq_false] using h
      · refine .inl ⟨hwaiting, ?_⟩
        simp only [hwaiting, ne_eq, not_false_eq_true, if_true] at h
        split_ifs at h with hsucceeded
        · exact .inr ⟨hsucceeded.1, (Except.ok.inj h).symm⟩
        · exact .inl (Except.ok.inj h).symm
        · exact .inl (Except.ok.inj h).symm
  · rw [if_pos hvalid] at h
    simp at h

/-- A call on a waiting row with a valid outcome. -/
theorem resumeWaitingNode_of_waiting
    (hvalid : pyLower (pyStrip rawOutcome) ∈ successOutcomes ++ failOutcomes)
    {entry : RowId × NodeRun} (hentry : st.nodes.byResumeToken token = some entry)
    (hwaiting : entry.2.status = .waiting) :
    resumeWaitingNode env now token rawOutcome decision advances st =
      resumeRow env now token (pyLower (pyStrip rawOutcome)) decision advances entry.1 entry.2
        st := by
  unfold resumeWaitingNode
  dsimp only
  rw [if_neg (not_not.mpr hvalid), hentry]
  simp only [hwaiting, reduceCtorEq, false_and, if_false, ne_eq, not_true_eq_false]

/-- What the decision on a waiting row does: the row is over, and nothing else that waits changes. -/
structure Resumes (st : EngineState) (id : RowId) (row : NodeRun) (waits : List Wait)
    (st' : EngineState) : Prop where
  nodes : Unpauses (fun other ↦ other = id) st.nodes st'.nodes
  row : ∃ row', st'.nodes.find id = some row' ∧
    (row'.status = .succeeded ∨ row'.status = .failed) ∧ row'.resumeToken = row.resumeToken
  waits : st'.waits = waits
  nextToken : st.nextToken ≤ st'.nextToken
  outbox : ∃ sent : List Envelope, st'.outbox = st.outbox ++ sent ∧
    ∀ envelope ∈ sent, ∀ token outcome decision, envelope.message ≠ .resume token outcome decision

theorem Unpauses.mono {released released' : RowId → Prop}
    (h : Unpauses released t t') (hle : ∀ id, released id → released' id) :
    Unpauses released' t t' where
  kept := by
    intro id row hrow
    obtain ⟨row', hrow', hstep⟩ := h.kept id row hrow
    exact ⟨row', hrow', fun hrest hkept ↦ hstep.kept hrest fun hreleased ↦
      hkept (hle id hreleased), hstep.waiting, hstep.resumeToken, hstep.nodeType⟩
  created := h.created

/-- The row of a decision and the hand-off that follows it. -/
theorem decideRow_spec (env : EngineEnv) (now : Time)
    (outcome : String) (output : JsonObject) (succeeds : Bool)
    (hrow : st.nodes.find id = some row) :
    let decided := decideRow env now id row outcome output succeeds st
    decided.waits = st.waits ∧ decided.nextToken = st.nextToken ∧ decided.outbox = st.outbox ∧
      Unpauses (fun other ↦ other = id) st.nodes decided.nodes ∧
      ∃ row', decided.nodes.find id = some row' ∧
        row'.status = (if succeeds then .succeeded else .failed) ∧
        row'.resumeToken = row.resumeToken ∧ row'.outputJson = output := by
  have hput : ∀ status error, status ≠ .waiting →
      Unpauses (fun other ↦ other = id) st.nodes
        (st.nodes.put id (row.resolve now status output error)) := by
    intro status error hstatus
    refine unpauses_put hrow ⟨fun _ h ↦ absurd rfl h, fun h ↦ absurd h hstatus, fun _ h ↦ h, rfl⟩
  unfold decideRow
  cases succeeds with
  | false =>
    simp only [Bool.false_eq_true, if_false]
    exact ⟨trivial, trivial, trivial, hput _ _ NodeStatus.noConfusion, _,
      find_put_self _ _ hrow, rfl, rfl, rfl⟩
  | true =>
    simp only [if_true]
    let handOff : HandOff :=
      { finish := { id := id, status := .succeeded, output := output }
        nodeType := none
        nodes := st.nodes.put id (row.resolve now .succeeded output none) }
    refine ⟨trivial, trivial, trivial,
      (hput _ _ NodeStatus.noConfusion).trans (handOff.unpauses env now),
      row.resolve now .succeeded output none, ?_, rfl, rfl, rfl⟩
    exact handOff.find_apply env now (find_put_self _ _ hrow)
      (show ¬ NodeStatus.succeeded.isSkippable by decide)

/-- The end of a resume leaves the waits as marked and the paused rows alone. -/
theorem completeResume_keepsPauses (env : EngineEnv) (now : Time) (id : RowId) (output : JsonObject) (advances : Bool)
    (waits : List Wait) (decided : EngineState) :
    KeepsPauses (fun _ ↦ False) { decided with waits := waits }
      (completeResume env now id output advances waits decided) := by
  unfold completeResume
  dsimp only
  have hfinal : ∀ run : Run, KeepsPauses (fun _ ↦ False) { decided with waits := waits }
      (EngineState.finalize env now { decided with waits := waits, run := run }) := by
    intro run
    exact KeepsPauses.trans (.of_nodes run (.refl _ _)) (finalize_keepsPauses _)
  split_ifs
  · exact (hfinal _).trans (advance_keepsPauses _)
  · exact hfinal _

theorem resumeRow_eq_ok
    (hrow : st.nodes.find id = some row)
    (h : resumeRow env now token outcome decision advances id row st = .ok st') :
    ∃ waits, markResumed now token outcome decision row st.waits = .ok waits ∧
      Resumes st id row waits st' := by
  unfold resumeRow at h
  dsimp only at h
  obtain ⟨hwaits, hnext, houtbox, hnodes, row', hrow', hstatus, htoken, -⟩ := decideRow_spec env now
    outcome (resumedOutput row outcome decision (continuesAfterTimeout env.render outcome decision))
    (decide (outcome ∈ successOutcomes ∨
      continuesAfterTimeout env.render outcome decision = true)) hrow
  rw [hwaits] at h
  cases hmarked : markResumed now token outcome decision row st.waits with
  | error exc =>
    rw [hmarked] at h
    simp at h
  | ok waits =>
    rw [hmarked] at h
    simp only [Except.ok.injEq] at h
    refine ⟨waits, rfl, ?_⟩
    rw [← h]
    have hrest := completeResume_keepsPauses env now id
      (resumedOutput row outcome decision (continuesAfterTimeout env.render outcome decision))
      advances waits (decideRow env now id row outcome
        (resumedOutput row outcome decision (continuesAfterTimeout env.render outcome decision))
        (decide (outcome ∈ successOutcomes ∨
          continuesAfterTimeout env.render outcome decision = true)) st)
    have hover : row'.status = .succeeded ∨ row'.status = .failed := by
      rw [hstatus]
      split_ifs
      · exact .inl rfl
      · exact .inr rfl
    refine ⟨hnodes.trans (hrest.nodes.mono fun _ ↦ False.elim), ?_, hrest.waits, ?_, ?_⟩
    · refine ⟨row', hrest.nodes.find_of_kept hrow' ?_ not_false, hover, htoken⟩
      rcases hover with hs | hs <;> rw [hs] <;> decide
    · exact hnext ▸ hrest.nextToken
    · obtain ⟨sent, hsent, hquiet⟩ := hrest.outbox
      exact ⟨sent, by rw [hsent]; exact congrArg (· ++ sent) houtbox, hquiet⟩

/-- The state after a resume of a waiting row, with the waits as marked. -/
def resumedState (env : EngineEnv) (now : Time) (id : RowId) (row : NodeRun) (outcome : String)
    (decision : JsonObject) (advances : Bool) (waits : List Wait) (st : EngineState) : EngineState :=
  let continues := continuesAfterTimeout env.render outcome decision
  let output := resumedOutput row outcome decision continues
  completeResume env now id output advances waits
    (decideRow env now id row outcome output (outcome ∈ successOutcomes ∨ continues) st)

/-- The decision on a waiting row: the waits are marked, and the rest does not look at them. -/
theorem resumeRow_eq
    (hrow : st.nodes.find id = some row) :
    resumeRow env now token outcome decision advances id row st =
      (markResumed now token outcome decision row st.waits).map fun waits ↦
        resumedState env now id row outcome decision advances waits st := by
  unfold resumeRow
  dsimp only
  rw [(decideRow_spec env now _ _ _ hrow).1]
  cases markResumed now token outcome decision row st.waits <;> rfl

section ResumedState

theorem resumedState_keepsPauses (env : EngineEnv) (now : Time) (outcome : String)
    (decision : JsonObject) (advances : Bool) (waits : List Wait) :
    KeepsPauses (fun _ ↦ False)
      { decideRow env now id row outcome
          (resumedOutput row outcome decision (continuesAfterTimeout env.render outcome decision))
          (outcome ∈ successOutcomes ∨ continuesAfterTimeout env.render outcome decision) st with
        waits := waits }
      (resumedState env now id row outcome decision advances waits st) :=
  completeResume_keepsPauses env now id _ advances waits _

theorem resumedState_find (env : EngineEnv) (now : Time) (outcome : String) (decision : JsonObject)
    (advances : Bool) (waits : List Wait) (hrow : st.nodes.find id = some row) :
    ∃ row', (resumedState env now id row outcome decision advances waits st).nodes.find id = some row' ∧
      row'.status = (if outcome ∈ successOutcomes ∨ continuesAfterTimeout env.render outcome decision
        then .succeeded else .failed) ∧
      row'.resumeToken = row.resumeToken ∧
      row'.outputJson =
        resumedOutput row outcome decision (continuesAfterTimeout env.render outcome decision) := by
  obtain ⟨-, -, -, -, row', hrow', hstatus, htoken, houtput⟩ := decideRow_spec env now outcome
    (resumedOutput row outcome decision (continuesAfterTimeout env.render outcome decision))
    (decide (outcome ∈ successOutcomes ∨
      continuesAfterTimeout env.render outcome decision = true)) hrow
  have hrest : row'.status.isAtRest := by
    rw [hstatus]
    split_ifs <;> decide
  refine ⟨row', ?_, ?_, htoken, houtput⟩
  · exact (resumedState_keepsPauses env now outcome decision advances waits).nodes.find_of_kept hrow' hrest
      not_false
  · simpa only [decide_eq_true_eq] using hstatus

/-- A resume leaves the other paused rows alone. -/
theorem resumedState_unpauses (env : EngineEnv) (now : Time) (outcome : String) (decision : JsonObject)
    (advances : Bool) (waits : List Wait) (hrow : st.nodes.find id = some row) :
    Unpauses (fun other ↦ other = id) st.nodes
      (resumedState env now id row outcome decision advances waits st).nodes := by
  obtain ⟨-, -, -, hnodes, -⟩ := decideRow_spec env now outcome
    (resumedOutput row outcome decision (continuesAfterTimeout env.render outcome decision))
    (decide (outcome ∈ successOutcomes ∨
      continuesAfterTimeout env.render outcome decision = true)) hrow
  exact hnodes.trans ((resumedState_keepsPauses env now outcome decision advances waits).nodes.mono
    fun _ ↦ False.elim)

theorem completeResume_noneEnters (hready : status ≠ .ready)
    (hqueued : status ≠ .queued) (env : EngineEnv) (now : Time) (id : RowId) (output : JsonObject)
    (advances : Bool) (waits : List Wait) (decided : EngineState) :
    NoneEnters status decided.nodes
      (completeResume env now id output advances waits decided).nodes := by
  unfold completeResume
  dsimp only
  split_ifs
  · exact advance_noneEnters hready hqueued _
  · exact .refl _ _

/-- A resume gives no other row a status that neither `advance` nor a hand-off gives. -/
theorem resumedState_noneEnters (hready : status ≠ .ready)
    (hskipped : status ≠ .skipped) (hqueued : status ≠ .queued) (env : EngineEnv) (now : Time)
    (outcome : String) (decision : JsonObject) (advances : Bool) (waits : List Wait) {other : RowId}
    (hother : other ≠ id)
    (hrow' : (resumedState env now id row outcome decision advances waits st).nodes.find other = some row')
    (hstatus : row'.status = status) : st.nodes.find other = some row' := by
  have hput : ∀ resolved : NodeRun, (st.nodes.put id resolved).find other = st.nodes.find other :=
    fun resolved ↦ find_put_of_ne _ _ hother
  have hdecided : ∀ (output : JsonObject) (succeeds : Bool),
      (decideRow env now id row outcome output succeeds st).nodes.find other = some row' →
        st.nodes.find other = some row' := by
    intro output succeeds hfind
    unfold decideRow at hfind
    cases succeeds with
    | false =>
      simp only [Bool.false_eq_true, if_false] at hfind
      rwa [hput] at hfind
    | true =>
      simp only [if_true] at hfind
      let handOff : HandOff :=
        { finish := { id := id, status := .succeeded, output := output }
          nodeType := none
          nodes := st.nodes.put id (row.resolve now .succeeded output none) }
      have hbefore : (st.nodes.put id (row.resolve now .succeeded output none)).find other = some row' :=
        handOff.noneEnters hready hskipped env now other row' hfind hstatus
      rwa [hput] at hbefore
  refine hdecided (resumedOutput row outcome decision (continuesAfterTimeout env.render outcome decision))
    (outcome ∈ successOutcomes ∨ continuesAfterTimeout env.render outcome decision) ?_
  exact completeResume_noneEnters hready hqueued env now id _ advances waits _ other row' hrow' hstatus

theorem resumedState_spec (env : EngineEnv) (now : Time) (outcome : String) (decision : JsonObject)
    (advances : Bool) (waits : List Wait) (hrow : st.nodes.find id = some row) :
    (resumedState env now id row outcome decision advances waits st).waits = waits ∧
      ((resumedState env now id row outcome decision advances waits st).nodes.find id).map
          NodeRun.outputJson =
        some (resumedOutput row outcome decision (continuesAfterTimeout env.render outcome decision)) := by
  obtain ⟨row', hrow', -, -, houtput⟩ := resumedState_find env now outcome decision advances waits hrow
  refine ⟨(resumedState_keepsPauses env now outcome decision advances waits).waits, ?_⟩
  rw [hrow', map_some, houtput]

end ResumedState

/-! ### The other operations -/

theorem Unpauses.of_active {released : RowId → Prop}
    (h : Unpauses released t t')
    (hactive : ∀ id row, t.find id = some row → released id → ¬ row.status.isAtRest) :
    Unpauses (fun _ ↦ False) t t' where
  kept := by
    intro id row hrow
    obtain ⟨row', hrow', hstep⟩ := h.kept id row hrow
    exact ⟨row', hrow', fun hrest _ ↦ hstep.kept hrest fun hreleased ↦
      hactive id row hrow hreleased hrest, hstep.waiting, hstep.resumeToken, hstep.nodeType⟩
  created := h.created

theorem cancel_unpauses (now : Time) (t : NodeTable) :
    Unpauses (fun _ ↦ True) t (t.mapValues fun _ row ↦ row.cancel now) := by
  refine unpauses_mapValues fun _ row _ ↦ ?_
  unfold NodeRun.cancel
  split
  · exact .refl _ row
  · exact .refl _ row
  · rename_i hcancelled
    refine ⟨fun _ h ↦ absurd trivial h, fun hwaiting ↦ ?_, fun _ h ↦ h, rfl⟩
    exact absurd (hcancelled.symm.trans hwaiting) NodeStatus.noConfusion
  · exact ⟨fun _ h ↦ absurd trivial h, fun hwaiting ↦ absurd hwaiting NodeStatus.noConfusion,
      fun _ h ↦ h, rfl⟩

theorem cancel_not_waiting (now : Time) (row : NodeRun) : (row.cancel now).status ≠ .waiting := by
  unfold NodeRun.cancel
  split
  · rename_i hstatus
    rw [hstatus]
    decide
  · rename_i hstatus
    rw [hstatus]
    decide
  · rename_i hstatus
    exact fun hwaiting ↦ absurd (hstatus.symm.trans hwaiting) NodeStatus.noConfusion
  · exact NodeStatus.noConfusion

theorem recover_resumeToken (env : EngineEnv) (now : Time) (draw : ℚ) (row : NodeRun) :
    (row.recover env now draw).resumeToken = row.resumeToken := by
  unfold NodeRun.recover
  dsimp only
  split_ifs <;> rfl

theorem recoverStale_keepsPauses (limit : ℕ) (draw : RowId → ℚ) (st : EngineState) :
    KeepsPauses (fun _ ↦ False) st (recoverStale env now limit draw st) := by
  unfold recoverStale
  dsimp only
  split_ifs
  · exact .refl st
  have hrecovered : Unpauses (fun id ↦
      id ∈ (listStaleClaimedNodes now limit st.nodes).map fst) st.nodes
      (((listStaleClaimedNodes now limit st.nodes).map fst).foldl
        (fun t id ↦ t.modify id (NodeRun.recover env now (draw id))) st.nodes) := by
    refine foldl_invariant ?_ (.refl _ _)
    intro t id hid hacc
    refine hacc.trans (unpauses_modify fun row _ ↦ ?_)
    obtain ⟨htype, -, hstatus⟩ := recover_status env now (draw id) row
    refine ⟨fun _ h ↦ absurd hid h, fun hwaiting ↦ ?_, fun token htoken ↦ ?_, htype⟩
    · rcases hstatus with hs | ⟨hs, -⟩
      · exact absurd (hs.symm.trans hwaiting) NodeStatus.noConfusion
      · exact absurd (hs.symm.trans hwaiting) NodeStatus.noConfusion
    · rwa [recover_resumeToken] at htoken
  refine KeepsPauses.trans (.of_nodes st.run (hrecovered.of_active ?_))
    (sendAdvance_keepsPauses now _)
  intro id row hrow hstale
  exact NodeStatus.not_isAtRest_of_isClaimed (claimed_of_stale hstale hrow)

theorem resetFailedToReady_unpauses (id : RowId) (t : NodeTable) :
    Unpauses (fun other ↦ other = id) t (t.modify id NodeRun.resetFailedToReady) := by
  refine unpauses_modify fun row _ ↦ ?_
  exact ⟨fun _ h ↦ absurd rfl h, fun hwaiting ↦ absurd hwaiting NodeStatus.noConfusion,
    fun _ h ↦ h, rfl⟩

theorem resetDescendantToPending_unpauses {released : Prop} (hreleased : released)
    (row : NodeRun) : row.Unpauses released row.resetDescendantToPending := by
  unfold NodeRun.resetDescendantToPending
  split_ifs
  · exact .refl _ row
  · exact ⟨fun _ h ↦ absurd hreleased h, fun hwaiting ↦ absurd hwaiting NodeStatus.noConfusion,
      fun _ h ↦ absurd h (by simp), rfl⟩

/-! ### Executions -/

theorem persistWaitingNode_congr {render : Json → String} {parseResumeAt : Json → Option Time}
    {isoFormat : Time → String} {waitId : ℕ} {output : JsonObject}
    {reason : Option String} (htype : row'.nodeType = row.nodeType)
    (htoken : row'.resumeToken = row.resumeToken) :
    persistWaitingNode render parseResumeAt isoFormat now id row' waitId output reason =
      persistWaitingNode render parseResumeAt isoFormat now id row waitId output reason := by
  unfold persistWaitingNode
  rw [htype, htoken]

structure NodeRun.SamePause (row row' : NodeRun) : Prop where
  status : row'.status = row.status
  nodeType : row'.nodeType = row.nodeType
  resumeToken : row'.resumeToken = row.resumeToken
  outputJson : row'.outputJson = row.outputJson
  waitingReason : row'.waitingReason = row.waitingReason

theorem completeNode_samePause (token : Option ℕ) (row : NodeRun) :
    row.SamePause (completeNode token row) := by
  unfold completeNode
  split_ifs <;> exact ⟨rfl, rfl, rfl, rfl, rfl⟩

theorem PauseEffect.congr {before before' after after' : EngineState}
    (h : PauseEffect env before id begun row' after)
    (hnext : before'.nextToken = before.nextToken) (hwaits : before'.waits = before.waits)
    (hnext' : after'.nextToken = after.nextToken) (hwaits' : after'.waits = after.waits)
    (htoken : begun.resumeToken = row.resumeToken) (hsame : row'.SamePause row'') :
    PauseEffect env before' id row row'' after' where
  nextToken := by
    rw [hnext, hnext']
    exact h.nextToken
  resumeToken := by
    rw [hsame.resumeToken, hnext, hnext', ← htoken]
    exact h.resumeToken
  waiting := by
    rw [hsame.status, hsame.resumeToken]
    exact h.waiting
  waits := by
    obtain ⟨created, hcreated, hlength, hpending, hnonempty⟩ := h.waits
    refine ⟨created, by rw [hwaits', hwaits, hcreated], hlength, fun wait hmem ↦ ?_, ?_⟩
    · obtain ⟨hstatus, hid, hnode, hresume, hwait, moment, hpersist⟩ := hpending wait hmem
      refine ⟨hsame.status.trans hstatus, hid.trans (by rw [hwaits]), hnode,
        hsame.resumeToken.trans hresume, hwait, moment, ?_⟩
      rw [hsame.outputJson, hsame.waitingReason,
        persistWaitingNode_congr hsame.nodeType hsame.resumeToken, hpersist]
    · rw [hsame.status, hsame.nodeType]
      exact hnonempty

/-- What an execution that reached its attempt does to waits and tokens: the claimed row is written
once, with the wait of its pause when it pauses, and the rest of the operation leaves the pauses alone. -/
structure Attempted (env : EngineEnv) (st : EngineState) (id : RowId) (row row' : NodeRun)
    (settled st' : EngineState) : Prop where
  find : st.nodes.find id = some row
  claimed : row.status.isClaimed
  nodeType : row'.nodeType = row.nodeType
  pause : PauseEffect env st id row row' settled
  nodes : settled.nodes = st.nodes.put id row'
  outbox : ∃ woken : List Envelope, settled.outbox = st.outbox ++ woken ∧
    ∀ envelope ∈ woken, ∃ token outcome decision,
      envelope.message = .resume token outcome decision ∧ outcome ∈ ["elapsed", "expired"]
  rest : KeepsPauses (fun other ↦ other = id ∧ row'.status ≠ .waiting) settled st'

theorem Ran.attempted
    {graphNode : GraphNode} {prepared : Prepared} {settled : Executed × Option Finish}
    (h : Ran env now args st row begun row' graphNode prepared settled) (token : ℕ) (draw : ℚ) :
    ∃ written between, Attempted env st args.row row written between
      (followUp env now draw args.row
        (completeExecution env now token args.row (handOn env now graphNode.type settled))) := by
  have hrow : ∀ current, (handOn env now graphNode.type settled).state.nodes.find args.row =
      some current → current.honourCancellation
        (handOn env now graphNode.type settled).state.run = current := by
    intro current hcurrent
    rw [h.find_handOn] at hcurrent
    refine honourCancellation_eq_self ?_ ?_
    · have hrun : (handOn env now graphNode.type settled).state.run = settled.1.state.run := by
        unfold handOn
        split <;> rfl
      rw [hrun]
      exact h.run_not_cancelled
    · rw [← Option.some.inj hcurrent, h.settled.cancellation, h.begun_cancellation]
  have hbefore : (handOn env now graphNode.type settled).state.nodes.find args.row = some row' :=
    h.find_handOn
  have htype : row'.nodeType = row.nodeType := h.settled.nodeType.trans h.begun_nodeType
  obtain ⟨done, finish⟩ := settled
  cases finish with
  | none =>
    -- nothing is handed on: the release of the claim is part of the one write
    have hcomplete := completeNode_samePause (some token) row'
    have hnodes : done.state.nodes.modify args.row (fun current ↦
        completeNode (some token) (current.honourCancellation done.state.run)) =
        st.nodes.put args.row (completeNode (some token) row') := by
      rw [show done.state.nodes = st.nodes.put args.row row' from h.nodes, put,
        KeyedTable.modify_modify, put]
      have hsame := hrow row' hbefore
      exact congrArg (st.nodes.modify args.row) (funext fun _ ↦ congrArg _ hsame)
    refine ⟨completeNode (some token) row',
      { done.state with nodes := st.nodes.put args.row (completeNode (some token) row') },
      h.find, h.claimed, hcomplete.nodeType.trans htype, ?_, rfl, h.settled.outbox, ?_⟩
    · exact h.settled.pause.congr rfl rfl rfl rfl h.begun_resumeToken hcomplete
    · refine KeepsPauses.trans (KeepsPauses.trans ?_ (finalize_keepsPauses _))
        (followUp_keepsPauses draw args.row _)
      exact KeepsPauses.of_nodes _ (hnodes ▸ .refl _ _)
  | some finish =>
    have hsuccess : row'.status.isSuccess := by
      rcases h.settled.outcome with ⟨hnone, -⟩ | ⟨hnone, -⟩ | ⟨-, hsuccess, -⟩
      · simp at hnone
      · simp at hnone
      · exact hsuccess
    have hstatus : row'.status ≠ .waiting := by
      intro hwaiting
      rw [hwaiting] at hsuccess
      exact absurd hsuccess (by decide)
    let handOff : HandOff :=
      { finish := finish, nodeType := some graphNode.type, nodes := done.state.nodes }
    refine ⟨row', done.state, h.find, h.claimed, htype,
      h.settled.pause.congr rfl rfl rfl rfl h.begun_resumeToken ⟨rfl, rfl, rfl, rfl, rfl⟩,
      h.nodes, h.settled.outbox, ?_⟩
    refine KeepsPauses.trans (KeepsPauses.trans ?_ (finalize_keepsPauses _))
      (followUp_keepsPauses draw args.row _)
    refine KeepsPauses.of_nodes _ ((handOff.unpauses env now).trans (unpauses_modify ?_))
    intro current hcurrent
    obtain rfl := mem_unique hbefore hcurrent
    rw [hrow row' hbefore]
    have hcomplete := completeNode_samePause (some token) row'
    refine ⟨fun _ hkept ↦ absurd ⟨rfl, hstatus⟩ hkept, fun hwaiting ↦ ?_, fun other hother ↦ ?_,
      hcomplete.nodeType⟩
    · rw [hcomplete.status] at hwaiting
      exact absurd hwaiting hstatus
    · rwa [hcomplete.resumeToken] at hother

/-- An execution that is refused, aborted or without a node in the graph leaves the pauses alone. -/
theorem ExecuteEffect.keepsPauses_or_ran
    (h : ExecuteEffect env now args token draw st handOff st') :
    KeepsPauses (fun _ ↦ False) st st' ∨
      ∃ row begun row' graphNode prepared settled,
        Ran env now args st row begun row' graphNode prepared settled ∧
          st' = followUp env now draw args.row
            (completeExecution env now token args.row (handOn env now graphNode.type settled)) := by
  cases h with
  | aborted =>
    refine .inl (KeepsPauses.of_nodes st.run (unpauses_modify fun row _ ↦ ?_))
    by_cases hstatus : row.status = .queued ∨ row.status = .running ∨ row.status = .ready
    · rw [if_pos hstatus]
      have hactive : ¬ row.status.isAtRest ∧ row.status ≠ .succeeded := by
        rcases hstatus with hs | hs | hs <;> rw [hs] <;> decide
      have hcomplete := completeNode_samePause
        (if row.claimToken = some token then some token else none)
        (NodeRun.markCancelled now "cancelled" { row with cancellationRequested := true })
      unfold NodeRun.abort
      dsimp only
      rw [if_neg hactive.2]
      refine .of_active hactive.1 ?_ hcomplete.resumeToken hcomplete.nodeType
      rw [hcomplete.status]
      exact NodeStatus.noConfusion
    · rw [if_neg hstatus]
      exact .refl _ row
  | rejected => exact .inl (.refl _)
  | missing row begun failed _ hrow hproceeds hstatus hresume _ hclaimed =>
    refine .inl (KeepsPauses.trans (KeepsPauses.of_nodes st.run (unpauses_put hrow ?_))
      (finalize_keepsPauses _))
    refine .of_active (NodeStatus.not_isAtRest_of_isClaimed hclaimed) ?_ hresume hproceeds.nodeType
    rw [hstatus]
    decide
  | ran row begun row' graphNode prepared settled hran =>
    exact .inr ⟨row, begun, row', graphNode, prepared, settled, hran, rfl⟩

theorem ExecuteEffect.pauses
    (h : ExecuteEffect env now args token draw st handOff st') :
    KeepsPauses (fun _ ↦ False) st st' ∨
      ∃ row row' settled, Attempted env st args.row row row' settled st' := by
  rcases h.keepsPauses_or_ran with hkeeps | ⟨row, _, _, _, _, _, hran, rfl⟩
  · exact .inl hkeeps
  · obtain ⟨written, between, hattempted⟩ := hran.attempted token draw
    exact .inr ⟨row, written, between, hattempted⟩

/-! ### The resets of `retry_from_node` -/

theorem resetSteps_unpauses
    (h : ReflTransGen (ResetStep g source) t t') :
    Unpauses (fun _ ↦ True) t t' ∧ ∀ id row', t'.find id = some row' →
      t.find id = some row' ∨ row'.resumeToken = none := by
  induction h with
  | refl => exact ⟨.refl _ _, fun _ _ hrow ↦ .inl hrow⟩
  | tail _ hstep ih =>
    obtain ⟨id, row, -, -⟩ := hstep
    refine ⟨ih.1.trans (unpauses_modify fun row _ ↦ resetDescendantToPending_unpauses trivial row),
      fun other row' hrow' ↦ ?_⟩
    rw [KeyedTable.find_modify] at hrow'
    split_ifs at hrow' with hother
    · obtain ⟨old, hold, rfl⟩ := map_eq_some_iff.mp hrow'
      by_cases hsucceeded : old.status = .succeeded
      · rw [NodeRun.resetDescendantToPending, if_pos hsucceeded]
        exact ih.2 other old hold
      · rw [NodeRun.resetDescendantToPending, if_neg hsucceeded]
        exact .inr rfl
    · exact ih.2 other row' hrow'

theorem NodeTable.lastRow_modify (t : NodeTable) (id : RowId) (f : NodeRun → NodeRun)
    (nodeId : String) :
    lastRow (t.modify id f) nodeId = (t.lastRow nodeId).map fun entry ↦
      (entry.1, if entry.1 = id then f entry.2 else entry.2) := by
  simp only [lastRow, KeyedTable.modify, KeyedTable.mapValues, List.filter_map,
    getLast?_map]
  rfl

theorem resetSteps_changed
    (h : ReflTransGen (ResetStep g source) t t') (hdiffers : t'.find id ≠ t.find id) :
    g.Ancestor source id.nodeId ∧ ∃ row, t.lastRow id.nodeId = some (id, row) := by
  suffices hsteps : (∀ nodeId, (t'.lastRow nodeId).map fst = (t.lastRow nodeId).map fst) ∧
      ∀ other, t'.find other ≠ t.find other →
        g.Ancestor source other.nodeId ∧ (t.lastRow other.nodeId).map fst = some other by
    obtain ⟨hancestor, hlast⟩ := hsteps.2 id hdiffers
    obtain ⟨entry, hentry, rfl⟩ := map_eq_some_iff.mp hlast
    exact ⟨hancestor, entry.2, hentry⟩
  clear hdiffers
  induction h with
  | refl => exact ⟨fun _ ↦ rfl, fun _ hne ↦ absurd rfl hne⟩
  | tail _ hstep ih =>
    obtain ⟨current, row, hlast, hancestor⟩ := hstep
    refine ⟨fun nodeId ↦ ?_, fun other hne ↦ ?_⟩
    · rw [NodeTable.lastRow_modify, Option.map_map, ← ih.1 nodeId]
      rfl
    · rw [KeyedTable.find_modify] at hne
      split_ifs at hne with hother
      · subst hother
        refine ⟨hancestor, ?_⟩
        rw [← ih.1, hlast]
        rfl
      · exact ih.2 other hne

/-- Only rows that differ have been released. -/
theorem Unpauses.of_changed (h : Unpauses (fun _ ↦ True) t t') :
    Unpauses (fun id ↦ t'.find id ≠ t.find id) t t' where
  kept := by
    intro id row hrow
    obtain ⟨row', hrow', hstep⟩ := h.kept id row hrow
    refine ⟨row', hrow', fun _ hsame ↦ ?_, hstep.waiting, hstep.resumeToken, hstep.nodeType⟩
    rw [not_not, hrow', hrow] at hsame
    exact Option.some.inj hsame
  created := h.created

end ContentGenerator.Workflows

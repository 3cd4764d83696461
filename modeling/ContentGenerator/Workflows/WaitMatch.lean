import ContentGenerator.Workflows.FirstResume

/-!
# Waits and waiting nodes

A pause is recorded twice, on the node row and in a wait. `WaitsMatch` says that the two records agree:
a pending wait belongs to a waiting row with its token, no row has two, and a waiting row of a type that
waits has a pending wait or a resume message in flight.

The operations keep it as long as none of them touches one record only: `KeepsWaits` is the condition on
an operation and the state it is applied to, and `waits_match_waiting_nodes` the result over whole runs.
`retry_from_node` breaks it, since it resets waiting descendants and leaves their waits pending
(`pending_wait_of_reset_row`).
-/

namespace ContentGenerator.Workflows

open Lib Relation List Option

variable {nodeId outcome eventKey rawOutcome : String} {payload decision : JsonObject} {st st' : EngineState}
  {waits : List Wait} {advances : Bool} {exempt : Option ℕ} {op : Op} {token : ℕ} {env : EngineEnv}
  {now : Time}

/-! ### The correspondence -/

def ResumeInFlight (token : ℕ) (outbox : List Envelope) : Prop :=
  ∃ envelope ∈ outbox, ∃ outcome decision, envelope.message = .resume token outcome decision

/-- Waits and waiting nodes correspond. A row with an exempt token need not be woken: the message for
it has just been taken. -/
structure WaitsMatch (exempt : Option ℕ) (st : EngineState) : Prop where
  pending : ∀ wait ∈ st.waits, wait.status = .pending → ∃ row,
    st.nodes.find wait.nodeRun = some row ∧ row.status = .waiting ∧
      row.resumeToken = some wait.resumeToken
  single : ((st.waits.filter fun wait ↦ wait.status = .pending).map Wait.nodeRun).Nodup
  woken : ∀ id row, st.nodes.find id = some row → row.status = .waiting →
    row.nodeType ∈ waitTypes → ∃ token, row.resumeToken = some token ∧
      ((∃ wait ∈ st.waits, wait.status = .pending ∧ wait.nodeRun = id) ∨
        ResumeInFlight token st.outbox ∨ exempt = some token)

/-- The condition on an operation and the state it is applied to: a node that is resumed is of a type
that waits or has no pending wait, a wait that is resolved by its event key has a resume message in
flight, and `retry_from_node` resets no row with a pending wait. -/
def KeepsWaits (g : WorkflowGraph) (op : Op) (st : EngineState) : Prop :=
  match op with
  | .resume token rawOutcome _ _ => validOutcome rawOutcome → ∀ entry,
      st.nodes.byResumeToken token = some entry → entry.2.status = .waiting →
        entry.2.nodeType ∈ waitTypes ∨ pendingUnder token st.waits = []
  | .resolveEvent eventKey _ => ∀ wait,
      (st.waits.filter fun wait ↦ wait.eventKey = some eventKey ∧ wait.status = .pending) = [wait] →
        ∀ row, st.nodes.find wait.nodeRun = some row → row.nodeType ∈ waitTypes →
          ResumeInFlight wait.resumeToken st.outbox
  | .retryFromNode nodeId => st.run.status ≠ .cancelled → st.run.status ≠ .succeeded →
      ((st.nodes.lastRow nodeId).any fun entry ↦ entry.2.status = .failed) →
        ∀ id row, g.Ancestor nodeId id.nodeId → st.nodes.lastRow id.nodeId = some (id, row) →
          row.status = .waiting → ∀ wait ∈ st.waits, wait.status = .pending → wait.nodeRun ≠ id
  | _ => True

/-- The resume messages in flight have outcomes that are valid. -/
def ValidMessages (outbox : List Envelope) : Prop :=
  ∀ envelope ∈ outbox, ∀ token outcome decision,
    envelope.message = .resume token outcome decision → validOutcome outcome

/-! ### Steps that settle waits and release rows -/

theorem ResumeInFlight.append {outbox : List Envelope}
    (h : ResumeInFlight token outbox) (sent : List Envelope) :
    ResumeInFlight token (outbox ++ sent) := by
  obtain ⟨envelope, hmem, hmessage⟩ := h
  exact ⟨envelope, mem_append_left _ hmem, hmessage⟩

/-- The correspondence under everything but a pause. Assumes: no wait stays pending on a row that is
released, a wait of a row that goes on waiting stays pending or has a message in flight, and no row with
the exempt token goes on waiting unless its token stays exempt. -/
theorem WaitsMatch.step {released : RowId → Prop} {exempt' : Option ℕ}
    (h : WaitsMatch exempt st) (hnodes : Unpauses released st.nodes st'.nodes)
    (hwaits : SettlesWaits st.waits st'.waits)
    (houtbox : ∀ token, ResumeInFlight token st.outbox → ResumeInFlight token st'.outbox)
    (hpending : ∀ wait ∈ st'.waits, wait.status = .pending → ¬ released wait.nodeRun)
    (hresolved : ∀ wait ∈ st.waits, wait.status = .pending → ∀ row,
      st'.nodes.find wait.nodeRun = some row → row.status = .waiting → row.nodeType ∈ waitTypes →
        wait ∈ st'.waits ∨ ResumeInFlight wait.resumeToken st'.outbox ∨
          exempt' = some wait.resumeToken)
    (hexempt : ∀ token, exempt = some token → exempt' ≠ some token → ∀ id row,
      st'.nodes.find id = some row → row.status = .waiting → row.resumeToken ≠ some token) :
    WaitsMatch exempt' st' where
  pending := by
    intro wait hmem hstatus
    obtain ⟨row, hrow, hwaiting, htoken⟩ :=
      h.pending wait (hwaits.mem_of_pending hmem hstatus) hstatus
    refine ⟨row, hnodes.find_of_kept hrow ?_ (hpending wait hmem hstatus), hwaiting, htoken⟩
    rw [hwaiting]
    decide
  single := (hwaits.pending_sublist.map Wait.nodeRun).nodup h.single
  woken := by
    intro id row hrow' hwaiting htype
    have hrow := hnodes.find_of_waiting hrow' hwaiting
    obtain ⟨token, htoken, hcase⟩ := h.woken id row hrow hwaiting htype
    refine ⟨token, htoken, ?_⟩
    rcases hcase with ⟨wait, hmem, hstatus, rfl⟩ | hflight | hsome
    · obtain ⟨owner, howner, -, hsame⟩ := h.pending wait hmem hstatus
      obtain rfl := mem_unique hrow howner
      obtain rfl := mem_unique htoken hsame
      rcases hresolved wait hmem hstatus row hrow' hwaiting htype with hkept | hsent | hexempt'
      · exact .inl ⟨wait, hkept, hstatus, rfl⟩
      · exact .inr (.inl hsent)
      · exact .inr (.inr hexempt')
    · exact .inr (.inl (houtbox token hflight))
    · by_cases hkept : exempt' = some token
      · exact .inr (.inr hkept)
      · exact absurd htoken (hexempt token hsome hkept id row hrow' hwaiting)

/-- The parts of operations that leave waits and pauses alone. Assumes: no wait is pending on a row
that is released. -/
theorem WaitsMatch.keepsPauses {released : RowId → Prop}
    (h : WaitsMatch exempt st) (hkeeps : KeepsPauses released st st')
    (hreleased : ∀ id row, released id → st.nodes.find id = some row → row.status ≠ .waiting) :
    WaitsMatch exempt st' := by
  obtain ⟨sent, hsent, -⟩ := hkeeps.outbox
  refine h.step hkeeps.nodes (hkeeps.waits ▸ .refl _) (fun token hflight ↦ ?_) ?_ ?_ ?_
  · rw [hsent]
    exact hflight.append sent
  · intro wait hmem hstatus hrel
    rw [hkeeps.waits] at hmem
    obtain ⟨row, hrow, hwaiting, -⟩ := h.pending wait hmem hstatus
    exact hreleased _ row hrel hrow hwaiting
  · intro wait hmem _ _ _ _ _
    exact .inl (hkeeps.waits ▸ hmem)
  · intro token hsome hkept
    exact absurd hsome hkept

/-! ### Executions -/

section Execution

variable {settled : EngineState} {id : RowId} {row row' : NodeRun}

theorem WaitsMatch.nodeRun_ne (h : WaitsMatch exempt st) (hrow : st.nodes.find id = some row)
    (hstatus : row.status ≠ .waiting) {wait : Wait} (hmem : wait ∈ st.waits)
    (hpending : wait.status = .pending) : wait.nodeRun ≠ id := by
  rintro rfl
  obtain ⟨owner, howner, hwaiting, -⟩ := h.pending wait hmem hpending
  exact hstatus (mem_unique hrow howner ▸ hwaiting)

/-- The correspondence right after an attempt has been settled. -/
theorem WaitsMatch.settle (h : WaitsMatch exempt st) (hrow : st.nodes.find id = some row)
    (hclaimed : row.status.isClaimed) (hpause : PauseEffect env st id row row' settled)
    (hnodes : settled.nodes = st.nodes.put id row')
    (houtbox : ∀ token, ResumeInFlight token st.outbox → ResumeInFlight token settled.outbox) :
    WaitsMatch exempt settled := by
  obtain ⟨created, hwaits, hlength, hcreated, hnonempty⟩ := hpause.waits
  have hself : settled.nodes.find id = some row' := hnodes ▸ NodeTable.find_put_self _ _ hrow
  have hother : ∀ {other : RowId}, other ≠ id → settled.nodes.find other = st.nodes.find other :=
    fun hne ↦ hnodes ▸ NodeTable.find_put_of_ne _ _ hne
  have hstatus : row.status ≠ .waiting := by
    intro hwaiting
    rw [hwaiting] at hclaimed
    exact absurd hclaimed (by decide)
  constructor
  · intro wait hmem hpending
    rw [hwaits] at hmem
    rcases mem_append.mp hmem with hold | hnew
    · rw [hother (h.nodeRun_ne hrow hstatus hold hpending)]
      exact h.pending wait hold hpending
    · obtain ⟨hwaiting, -, hnode, htoken, -⟩ := hcreated wait hnew
      exact ⟨row', hnode ▸ hself, hwaiting, htoken⟩
  · rw [hwaits, filter_append, map_append]
    refine nodup_append.mpr ⟨h.single, ?_, ?_⟩
    · cases created with
      | nil => exact nodup_nil
      | cons wait rest =>
        obtain rfl : rest = [] := length_eq_zero_iff.mp (by simpa using hlength)
        exact (nodup_singleton wait.nodeRun).sublist
          ((filter_sublist (l := [wait])).map Wait.nodeRun)
    · intro old hold new hnew hsame
      obtain ⟨wait, hwait, rfl⟩ := List.mem_map.mp hold
      obtain ⟨fresh, hfresh, rfl⟩ := List.mem_map.mp hnew
      obtain ⟨hmem, hpending⟩ := mem_filter.mp hwait
      refine h.nodeRun_ne hrow hstatus hmem (by simpa using hpending) ?_
      rw [hsame]
      exact (hcreated fresh (mem_of_mem_filter hfresh)).2.2.1
  · intro other otherRow hfind hwaiting htype
    by_cases hne : other = id
    · subst hne
      obtain rfl := mem_unique hself hfind
      obtain ⟨token, htoken⟩ := isSome_iff_exists.mp (hpause.waiting hwaiting)
      obtain ⟨wait, hnew⟩ := exists_mem_of_ne_nil _ (hnonempty hwaiting htype)
      obtain ⟨-, -, hnode, -, hpending, -⟩ := hcreated wait hnew
      exact ⟨token, htoken, .inl ⟨wait, hwaits ▸ mem_append_right _ hnew, hpending, hnode⟩⟩
    · rw [hother hne] at hfind
      obtain ⟨token, htoken, hcase⟩ := h.woken other otherRow hfind hwaiting htype
      refine ⟨token, htoken, ?_⟩
      rcases hcase with ⟨wait, hmem, hpending, hnode⟩ | hflight | hsome
      · exact .inl ⟨wait, hwaits ▸ mem_append_left _ hmem, hpending, hnode⟩
      · exact .inr (.inl (houtbox token hflight))
      · exact .inr (.inr hsome)

theorem WaitsMatch.attempted (h : WaitsMatch exempt st)
    (hattempted : Attempted env st id row row' settled st') : WaitsMatch exempt st' := by
  obtain ⟨woken, hwoken, -⟩ := hattempted.outbox
  have hsettled := h.settle hattempted.find hattempted.claimed hattempted.pause hattempted.nodes
    fun token hflight ↦ hwoken ▸ hflight.append woken
  refine hsettled.keepsPauses hattempted.rest ?_
  rintro other otherRow ⟨rfl, hstatus⟩ hfind
  rw [hattempted.nodes, NodeTable.find_put_self _ _ hattempted.find] at hfind
  exact Option.some.inj hfind ▸ hstatus

end Execution

/-! ### Resumes -/

section Resume

/-- The decision on a waiting row ends its pause on both sides. Assumes: the exempt token, if any, is
the one resumed, and the row is of a type that waits or has no pending wait. -/
theorem WaitsMatch.resumes (h : WaitsMatch exempt st) (htokens : WaitTokens env st)
    (hexempt : ∀ other, exempt = some other → other = token) {entry : RowId × NodeRun}
    (hentry : st.nodes.byResumeToken token = some entry)
    (hkeeps : entry.2.nodeType ∈ waitTypes ∨ pendingUnder token st.waits = [])
    (hmarked : markResumed now token outcome decision entry.2 st.waits = .ok waits)
    (hresumes : Resumes st entry.1 entry.2 waits st') : WaitsMatch none st' := by
  obtain ⟨hsettles, hnone, hkept⟩ := markResumed_spec hmarked
  have hfind := NodeTable.find_of_byResumeToken hentry
  have htoken := NodeTable.token_of_byResumeToken hentry
  obtain ⟨row', hrow', hover, hsame⟩ := hresumes.row
  have hstatus : row'.status ≠ .waiting := by
    rcases hover with hs | hs <;> rw [hs] <;> decide
  -- a row that waits afterwards is another one, with another token
  have hothers : ∀ id row, st'.nodes.find id = some row → row.status = .waiting →
      st.nodes.find id = some row ∧ row.resumeToken ≠ some token := by
    intro id row hrow hwaiting
    have hold := hresumes.nodes.find_of_waiting hrow hwaiting
    refine ⟨hold, fun hcollides ↦ hstatus ?_⟩
    obtain rfl := htokens.distinct id entry.1 row entry.2 token hold hfind hcollides htoken
    rwa [mem_unique hrow' hrow]
  obtain ⟨sent, hsent, -⟩ := hresumes.outbox
  refine h.step hresumes.nodes (hresumes.waits ▸ hsettles) (fun other hflight ↦ ?_) ?_ ?_ ?_
  · rw [hsent]
    exact hflight.append sent
  · intro wait hmem hpending hnode
    rw [hresumes.waits] at hmem
    have hold := hsettles.mem_of_pending hmem hpending
    obtain ⟨owner, howner, -, hownerToken⟩ := h.pending wait hold hpending
    rw [hnode] at howner
    obtain rfl := mem_unique hfind howner
    obtain hwaitToken := mem_unique htoken hownerToken
    rcases hkeeps with htype | hempty
    · have hfound : wait ∈ pendingUnder token waits :=
        mem_pendingUnder.mpr ⟨hmem, hwaitToken.symm, hpending⟩
      rw [hnone htype] at hfound
      exact not_mem_nil hfound
    · have hfound : wait ∈ pendingUnder token st.waits :=
        mem_pendingUnder.mpr ⟨hold, hwaitToken.symm, hpending⟩
      rw [hempty] at hfound
      exact not_mem_nil hfound
  · intro wait hmem hpending row hrow hwaiting _
    obtain ⟨hold, hne⟩ := hothers _ row hrow hwaiting
    obtain ⟨owner, howner, -, hownerToken⟩ := h.pending wait hmem hpending
    obtain rfl := mem_unique hold howner
    refine .inl ?_
    rw [hresumes.waits]
    exact hkept htokens.nodup_ids wait hmem fun hcollides ↦ hne (by rw [hownerToken, hcollides])
  · intro other hother _ id row hrow hwaiting
    rw [hexempt other hother]
    exact (hothers id row hrow hwaiting).2

/-- A resume that returned. -/
theorem WaitsMatch.of_resume (h : WaitsMatch exempt st) (htokens : WaitTokens env st)
    (hexempt : ∀ other, exempt = some other → other = token)
    (hkeeps : ∀ entry, st.nodes.byResumeToken token = some entry → entry.2.status = .waiting →
      entry.2.nodeType ∈ waitTypes ∨ pendingUnder token st.waits = [])
    (hresume : resumeWaitingNode env now token rawOutcome decision advances st = .ok st') :
    WaitsMatch none st' := by
  obtain ⟨-, entry, hentry, ⟨hstatus, hunchanged⟩ | ⟨hwaiting, hrow⟩⟩ :=
    resumeWaitingNode_eq_ok hresume
  · have hself : WaitsMatch none st := by
      refine h.step (Unpauses.refl (fun _ ↦ False) _) (.refl _) (fun _ hflight ↦ hflight)
        (fun _ _ _ hfalse ↦ hfalse) (fun wait hmem _ _ _ _ _ ↦ .inl hmem) ?_
      intro other hother _ id row hrow hwaiting hcollides
      rw [hexempt other hother] at hcollides
      have hsame := htokens.byResumeToken_eq hrow hcollides
      obtain rfl := mem_unique hentry hsame
      exact hstatus hwaiting
    rcases hunchanged with rfl | ⟨-, rfl⟩
    · exact hself
    · have hkeeps : KeepsPauses (fun _ ↦ False) st (advance env now st) := advance_keepsPauses st
      exact hself.keepsPauses hkeeps fun _ _ hfalse ↦ hfalse.elim
  · obtain ⟨waits, hmarked, hresumes⟩ := resumeRow_eq_ok (NodeTable.find_of_byResumeToken hentry) hrow
    exact h.resumes htokens hexempt hentry (hkeeps entry hentry hwaiting) hmarked hresumes

/-- A resume with a valid outcome that raised found no waiting row. -/
theorem WaitsMatch.of_resume_error (h : WaitsMatch exempt st) (htokens : WaitTokens env st)
    (hexempt : ∀ other, exempt = some other → other = token)
    (hvalid : validOutcome rawOutcome) {exc : PyException}
    (hresume : resumeWaitingNode env now token rawOutcome decision advances st = .error exc) :
    WaitsMatch none st := by
  refine h.step (Unpauses.refl (fun _ ↦ False) _) (.refl _) (fun _ hflight ↦ hflight)
    (fun _ _ _ hfalse ↦ hfalse) (fun wait hmem _ _ _ _ _ ↦ .inl hmem) ?_
  intro other hother _ id row hrow hwaiting hcollides
  rw [hexempt other hother] at hcollides
  obtain ⟨after, hok, -⟩ := htokens.resume_of_waiting now hrow hwaiting hcollides hvalid decision
    advances
  exact absurd (hok.symm.trans hresume) (by simp)

end Resume

/-! ### Events and due waits -/

section Waits

/-- Resolving one wait by its event key. Assumes: its row is of a type that does not wait, or a resume
message is in flight, or the token becomes exempt. -/
theorem WaitsMatch.resolve (h : WaitsMatch none st) (htokens : WaitTokens env st)
    {resolved : Option ℕ × List Wait}
    (hresolved : resolveWaitByEventKey now eventKey payload st.waits = .ok resolved)
    (exempt : Option ℕ)
    (hwoken : ∀ wait, (st.waits.filter fun wait ↦
        wait.eventKey = some eventKey ∧ wait.status = .pending) = [wait] →
      ∀ row, st.nodes.find wait.nodeRun = some row → row.nodeType ∈ waitTypes →
        ResumeInFlight wait.resumeToken st.outbox ∨ exempt = some wait.resumeToken) :
    WaitsMatch exempt { st with waits := resolved.2 } := by
  obtain ⟨hsettles, hnone, hsome⟩ := resolveWaitByEventKey_spec hresolved
  refine h.step (Unpauses.refl (fun _ ↦ False) _) hsettles (fun _ hflight ↦ hflight)
    (fun _ _ _ hfalse ↦ hfalse) ?_ (by simp)
  intro wait hmem hpending row hrow _ htype
  cases hfirst : resolved.1 with
  | none => exact .inl (hnone hfirst ▸ hmem)
  | some token =>
    obtain ⟨pending, -, hone, -, -, hkept⟩ := hsome token hfirst
    by_cases hsame : wait = pending
    · subst hsame
      exact .inr (hwoken wait hone row hrow htype)
    · exact .inl (hkept htokens.nodup_ids wait hmem hsame)

/-- The scanner sends a resume message for each wait it resolves. -/
theorem WaitsMatch.wake (h : WaitsMatch none st) (htokens : WaitTokens env st) (limit : ℕ) :
    WaitsMatch none (wakeDueWaits now limit st) := by
  refine h.step (Unpauses.refl (fun _ ↦ False) _) (wakeDueWaits_settles limit st)
    (fun token hflight ↦ hflight.append _) (fun _ _ _ hfalse ↦ hfalse) ?_ (by simp)
  intro wait hmem _ _ _ _ _
  by_cases hdue : wait.id ∈ (dueWaits now limit st.waits).map Wait.id
  · obtain ⟨due, hfound, hid⟩ := List.mem_map.mp hdue
    have hdueMem : due ∈ st.waits := by
      have hsorted := mem_of_mem_take hfound
      rw [(perm_insertionSort _ _).mem_iff] at hsorted
      exact mem_of_mem_filter hsorted
    obtain rfl := inj_on_of_nodup_map htokens.nodup_ids hdueMem hmem hid
    refine .inr (.inl ⟨_, mem_append_right _ (List.mem_map.mpr ⟨due, hfound, rfl⟩), ?_⟩)
    exact ⟨due.dueOutcome, due.dueDecision, rfl⟩
  · exact .inl (List.mem_map.mpr ⟨wait, hmem, if_neg hdue⟩)

theorem WaitsMatch.pendingUnder_resolved (h : WaitsMatch none st) (htokens : WaitTokens env st)
    (hresolved : resolveWaitByEventKey now eventKey payload st.waits = .ok (some token, waits)) :
    pendingUnder token waits = [] := by
  obtain ⟨hsettles, -, hsome⟩ := resolveWaitByEventKey_spec hresolved
  obtain ⟨resolved, hmem, hone, htoken, hgone, -⟩ := hsome token rfl
  have hpending : resolved.status = .pending := by
    have hfound : resolved ∈ st.waits.filter fun wait ↦
        wait.eventKey = some eventKey ∧ wait.status = .pending := by
      rw [hone]
      exact mem_singleton.mpr rfl
    have hboth := (mem_filter.mp hfound).2
    rw [decide_eq_true_eq] at hboth
    exact hboth.2
  refine eq_nil_iff_forall_not_mem.mpr fun wait hwait ↦ ?_
  obtain ⟨hwaitMem, hwaitToken, hwaitPending⟩ := mem_pendingUnder.mp hwait
  have hold := hsettles.mem_of_pending hwaitMem hwaitPending
  obtain ⟨row, hrow, -, hrowToken⟩ := h.pending wait hold hwaitPending
  obtain ⟨row', hrow', -, hrowToken'⟩ := h.pending resolved hmem hpending
  have hnode : wait.nodeRun = resolved.nodeRun :=
    htokens.distinct _ _ row row' token hrow hrow' (by rw [hrowToken, hwaitToken])
      (by rw [hrowToken', htoken])
  refine hgone wait hwaitMem hwaitPending (inj_on_of_nodup_map h.single ?_ ?_ hnode)
  · exact mem_filter.mpr ⟨hold, by simpa using hwaitPending⟩
  · exact mem_filter.mpr ⟨hmem, by simpa using hpending⟩

/-- `resume_run` by event key: the token is exempt between the two parts. -/
theorem WaitsMatch.of_resumeRun (h : WaitsMatch none st)
    (htokens : WaitTokens env st)
    (hresume : resumeRun env now eventKey decision advances st = .ok st') : WaitsMatch none st' := by
  obtain ⟨token, waits, hresolved, hresumed⟩ := resumeRun_eq_ok hresume
  obtain ⟨hsettles, -, hsome⟩ := resolveWaitByEventKey_spec hresolved
  obtain ⟨resolved, -, hone, htoken, -⟩ := hsome token rfl
  have hexempt : WaitsMatch (some token) { st with waits := waits } := by
    refine h.resolve htokens hresolved (some token) fun wait hwait _ _ _ ↦ .inr ?_
    have hsame : wait = resolved := by simpa using hwait.symm.trans hone
    rw [hsame, htoken]
  have hempty := h.pendingUnder_resolved htokens hresolved
  refine hexempt.of_resume (htokens.settles hsettles st.outbox) (fun other hother ↦ ?_)
    (fun _ _ _ ↦ .inr hempty) hresumed
  exact (Option.some.inj hother).symm

end Waits

/-! ### Cancellation and operator retries -/

section Retries

/-- A cancellation leaves neither waits pending nor rows waiting. -/
theorem WaitsMatch.of_cancel (h : WaitsMatch none st) (hcancel : cancelRun now st = .ok st') :
    WaitsMatch none st' := by
  rcases cancelRun_waits hcancel with rfl | ⟨-, hnone, hnodes, -, -⟩
  · exact h
  · refine ⟨fun wait hmem hpending ↦ absurd hpending (hnone wait hmem), ?_, ?_⟩
    · rw [filter_eq_nil_iff.mpr fun wait hmem ↦ by simpa using hnone wait hmem]
      exact nodup_nil
    · intro id row hrow hwaiting
      rw [hnodes, KeyedTable.find_mapValues] at hrow
      obtain ⟨old, -, rfl⟩ := map_eq_some_iff.mp hrow
      exact absurd hwaiting (cancel_not_waiting now old)

theorem WaitsMatch.reopened {released : RowId → Prop} {t : NodeTable} (h : WaitsMatch none st)
    (hnodes : Unpauses released st.nodes t)
    (hreleased : ∀ wait ∈ st.waits, wait.status = .pending → ¬ released wait.nodeRun) :
    WaitsMatch none (advance env now { st with nodes := t, run := st.run.reopen }) := by
  have hreset : WaitsMatch none { st with nodes := t, run := st.run.reopen } :=
    h.step hnodes (.refl _) (fun _ hflight ↦ hflight) hreleased
      (fun wait hmem _ _ _ _ _ ↦ .inl hmem) (by simp)
  have hkeeps : KeepsPauses (fun _ ↦ False) { st with nodes := t, run := st.run.reopen }
      (advance env now { st with nodes := t, run := st.run.reopen }) := advance_keepsPauses _
  exact hreset.keepsPauses hkeeps fun _ _ hfalse ↦ hfalse.elim

theorem WaitsMatch.of_retryNode (h : WaitsMatch none st)
    (hretry : retryNode env now nodeId st = .ok st') : WaitsMatch none st' := by
  obtain ⟨-, id, row, hrow, hfailed, rfl⟩ := retryNode_eq_ok hretry
  refine h.reopened (resetFailedToReady_unpauses id st.nodes) fun wait hmem hpending ↦ ?_
  refine h.nodeRun_ne hrow ?_ hmem hpending
  rw [hfailed]
  decide

theorem WaitsMatch.of_retryFromNode (h : WaitsMatch none st)
    (hkeeps : KeepsWaits env.graph (.retryFromNode nodeId) st)
    (hretry : retryFromNode env now nodeId st = .ok st') : WaitsMatch none st' := by
  obtain ⟨⟨hcancelled, hsucceeded⟩, id, row, hlast, hfailed, rfl⟩ := retryFromNode_eq_ok hretry
  have hsteps := resetLoop_steps env.graph nodeId (st.nodes.modify id NodeRun.resetFailedToReady)
  have hresets := (((resetFailedToReady_unpauses id st.nodes).mono fun _ _ ↦ trivial).trans
    (resetSteps_unpauses hsteps).1).of_changed
  refine h.reopened hresets fun wait hmem hpending hdiffers ↦ ?_
  obtain ⟨owner, howner, hwaiting, -⟩ := h.pending wait hmem hpending
  have hother : wait.nodeRun ≠ id := by
    refine h.nodeRun_ne (NodeTable.lastRow_eq_some hlast).1 ?_ hmem hpending
    rw [hfailed]
    decide
  have hsame := KeyedTable.find_modify_of_ne st.nodes NodeRun.resetFailedToReady hother
  rw [← hsame] at hdiffers
  obtain ⟨hancestor, last, hlastRow⟩ := resetSteps_changed hsteps hdiffers
  rw [NodeTable.lastRow_modify] at hlastRow
  obtain ⟨entry, hentry, hkey⟩ := map_eq_some_iff.mp hlastRow
  have hid : entry.1 = wait.nodeRun := congrArg Prod.fst hkey
  have hfind := (NodeTable.lastRow_eq_some hentry).1
  rw [hid, howner] at hfind
  refine hkeeps hcancelled hsucceeded (by rw [hlast]; simpa using hfailed) wait.nodeRun owner hancestor
    ?_ hwaiting wait hmem hpending rfl
  rw [hentry, ← hid, Option.some.inj hfind]

end Retries

/-! ### Messages -/

section Messages

variable {outbox : List Envelope}

theorem ValidMessages.append {sent : List Envelope} (h : ValidMessages outbox)
    (hsent : ValidMessages sent) : ValidMessages (outbox ++ sent) := by
  intro envelope hmem
  rcases mem_append.mp hmem with hold | hnew
  · exact h envelope hold
  · exact hsent envelope hnew

theorem ValidMessages.eraseIdx (h : ValidMessages outbox) (i : ℕ) :
    ValidMessages (outbox.eraseIdx i) :=
  fun envelope hmem ↦ h envelope (mem_of_mem_eraseIdx hmem)

theorem ValidMessages.keepsPauses {released : RowId → Prop} (h : ValidMessages st.outbox)
    (hkeeps : KeepsPauses released st st') : ValidMessages st'.outbox := by
  obtain ⟨sent, hsent, hquiet⟩ := hkeeps.outbox
  rw [hsent]
  refine h.append fun envelope hmem token outcome decision hmessage ↦ ?_
  exact absurd hmessage (hquiet envelope hmem token outcome decision)

/-- The two outcomes that the engine sends itself are valid. -/
theorem validOutcome_of_mem (h : outcome ∈ ["elapsed", "expired"]) :
    validOutcome outcome := by
  rcases mem_cons.mp h with rfl | h
  · decide +kernel
  · rw [mem_singleton.mp h]
    decide +kernel

theorem dueOutcome_mem (wait : Wait) : wait.dueOutcome ∈ ["elapsed", "expired"] := by
  unfold Wait.dueOutcome
  split <;> decide

theorem ValidMessages.attempted {settled : EngineState} {id : RowId} {row row' : NodeRun}
    (h : ValidMessages st.outbox) (hattempted : Attempted env st id row row' settled st') :
    ValidMessages st'.outbox := by
  obtain ⟨woken, hwoken, houtcome⟩ := hattempted.outbox
  have hsettled : ValidMessages settled.outbox := by
    rw [hwoken]
    refine h.append fun envelope hmem token outcome decision hmessage ↦ ?_
    obtain ⟨token', outcome', decision', hmessage', hvalid⟩ := houtcome envelope hmem
    rw [hmessage'] at hmessage
    obtain ⟨-, rfl, -⟩ := Message.resume.inj hmessage
    exact validOutcome_of_mem hvalid
  exact hsettled.keepsPauses hattempted.rest

theorem ValidMessages.of_resume
    (h : ValidMessages st.outbox)
    (hresume : resumeWaitingNode env now token rawOutcome decision advances st = .ok st') :
    ValidMessages st'.outbox := by
  obtain ⟨-, entry, hentry, ⟨-, rfl | ⟨-, rfl⟩⟩ | ⟨-, hrow⟩⟩ := resumeWaitingNode_eq_ok hresume
  · exact h
  · have hkeeps : KeepsPauses (fun _ ↦ False) st (advance env now st) := advance_keepsPauses st
    exact h.keepsPauses hkeeps
  · obtain ⟨waits, -, hresumes⟩ := resumeRow_eq_ok (NodeTable.find_of_byResumeToken hentry) hrow
    obtain ⟨sent, hsent, hquiet⟩ := hresumes.outbox
    rw [hsent]
    refine h.append fun envelope hmem token outcome decision hmessage ↦ ?_
    exact absurd hmessage (hquiet envelope hmem token outcome decision)

/-- Every operation sends resume messages with valid outcomes only. -/
theorem ValidMessages.apply (h : ValidMessages st.outbox)
    (hop : op.apply env now st = .ok st') : ValidMessages st'.outbox := by
  have hadvance : ∀ before : EngineState, ValidMessages before.outbox →
      ValidMessages (advance env now before).outbox := by
    intro before hbefore
    have hkeeps : KeepsPauses (fun _ ↦ False) before (advance env now before) :=
      advance_keepsPauses before
    exact hbefore.keepsPauses hkeeps
  cases op with
  | advance =>
    rw [← Except.ok.inj hop]
    exact hadvance st h
  | execute args token worker draw =>
    rcases (executeClaimedNodeRun_effect hop).pauses with hkeeps | ⟨row, row', settled, hattempted⟩
    · exact h.keepsPauses hkeeps
    · exact h.attempted hattempted
  | resume token outcome decision advances =>
    rw [Op.apply] at hop
    exact h.of_resume hop
  | resolveEvent eventKey payload =>
    obtain ⟨⟨_, waits⟩, -, rfl⟩ := resolveEvent_eq_ok hop
    exact h
  | resumeRun eventKey decision advances =>
    rw [Op.apply] at hop
    obtain ⟨token, waits, -, hresume⟩ := resumeRun_eq_ok hop
    have hresolved : ValidMessages ({ st with waits := waits } : EngineState).outbox := h
    exact hresolved.of_resume hresume
  | recover limit draw =>
    rw [← Except.ok.inj hop]
    exact h.keepsPauses (recoverStale_keepsPauses limit draw st)
  | wake limit =>
    rw [← Except.ok.inj hop]
    refine h.append fun envelope hmem token outcome decision hmessage ↦ ?_
    obtain ⟨wait, -, rfl⟩ := List.mem_map.mp hmem
    obtain ⟨-, rfl, -⟩ := Message.resume.inj hmessage
    exact validOutcome_of_mem (dueOutcome_mem wait)
  | cancel =>
    rw [Op.apply] at hop
    rcases cancelRun_waits hop with rfl | ⟨-, -, -, houtbox, -⟩
    · exact h
    · rwa [houtbox]
  | retryNode nodeId =>
    rw [Op.apply] at hop
    obtain ⟨-, id, row, -, -, rfl⟩ := retryNode_eq_ok hop
    exact hadvance _ h
  | retryFromNode nodeId =>
    rw [Op.apply] at hop
    obtain ⟨-, id, row, -, -, rfl⟩ := retryFromNode_eq_ok hop
    exact hadvance _ h

theorem ValidMessages.run (h : ValidMessages st.outbox) :
    ValidMessages (op.run env now st).outbox := by
  unfold Op.run
  split
  · rename_i st' hop
    exact h.apply hop
  · exact h

theorem WaitsMatch.take (h : WaitsMatch none st) (i : Fin st.outbox.length)
    (htaken : ∀ token outcome decision,
      (st.outbox.get i).message = .resume token outcome decision → exempt = some token) :
    WaitsMatch exempt { st with outbox := st.outbox.eraseIdx i } where
  pending := h.pending
  single := h.single
  woken := by
    intro id row hrow hwaiting htype
    obtain ⟨token, htoken, hcase⟩ := h.woken id row hrow hwaiting htype
    refine ⟨token, htoken, ?_⟩
    rcases hcase with hpending | ⟨envelope, hmem, outcome, decision, hmessage⟩ | hnone
    · exact .inl hpending
    · obtain ⟨j, hj⟩ := mem_iff_getElem?.mp hmem
      by_cases hsame : j = i
      · subst hsame
        rw [getElem?_eq_getElem i.isLt] at hj
        exact .inr (.inr (htaken token outcome decision
          (by rw [← hmessage, ← Option.some.inj hj]; rfl)))
      · exact .inr (.inl ⟨envelope, mem_eraseIdx_iff_getElem?.mpr ⟨j, hsame, hj⟩, outcome,
          decision, hmessage⟩)
    · simp at hnone

end Messages

/-! ### Runs -/

section Runs

/-- Every operation that meets the condition keeps the correspondence. -/
theorem WaitsMatch.apply (h : WaitsMatch none st) (htokens : WaitTokens env st)
    (hkeeps : KeepsWaits env.graph op st) (hop : op.apply env now st = .ok st') :
    WaitsMatch none st' := by
  cases op with
  | advance =>
    rw [← Except.ok.inj hop]
    have hpauses : KeepsPauses (fun _ ↦ False) st (advance env now st) := advance_keepsPauses st
    exact h.keepsPauses hpauses fun _ _ hfalse ↦ hfalse.elim
  | execute args token worker draw =>
    rcases (executeClaimedNodeRun_effect hop).pauses with hpauses | ⟨row, row', settled, hattempted⟩
    · exact h.keepsPauses hpauses fun _ _ hfalse ↦ hfalse.elim
    · exact h.attempted hattempted
  | resume token outcome decision advances =>
    rw [Op.apply] at hop
    refine h.of_resume htokens (by simp) (hkeeps ?_) hop
    simpa only [validOutcome, decide_eq_true_eq] using (resumeWaitingNode_eq_ok hop).1
  | resolveEvent eventKey payload =>
    obtain ⟨resolved, hresolved, rfl⟩ := resolveEvent_eq_ok hop
    exact h.resolve htokens hresolved none fun wait hwait row hrow htype ↦
      .inl (hkeeps wait hwait row hrow htype)
  | resumeRun eventKey decision advances =>
    rw [Op.apply] at hop
    exact h.of_resumeRun htokens hop
  | recover limit draw =>
    rw [← Except.ok.inj hop]
    exact h.keepsPauses (recoverStale_keepsPauses limit draw st) fun _ _ hfalse ↦ hfalse.elim
  | wake limit =>
    rw [← Except.ok.inj hop]
    exact h.wake htokens limit
  | cancel =>
    rw [Op.apply] at hop
    exact h.of_cancel hop
  | retryNode nodeId =>
    rw [Op.apply] at hop
    exact h.of_retryNode hop
  | retryFromNode nodeId =>
    rw [Op.apply] at hop
    exact h.of_retryFromNode hkeeps hop

theorem WaitsMatch.run (h : WaitsMatch none st) (htokens : WaitTokens env st)
    (hkeeps : KeepsWaits env.graph op st) : WaitsMatch none (op.run env now st) := by
  unfold Op.run
  split
  · rename_i st' hop
    exact h.apply htokens hkeeps hop
  · exact h

theorem WaitsMatch.deliver (h : WaitsMatch none st) (htokens : WaitTokens env st)
    (hvalid : ValidMessages st.outbox) (i : Fin st.outbox.length)
    (hhandles : op.Handles (st.outbox.get i).message)
    (hkeeps : KeepsWaits env.graph op { st with outbox := st.outbox.eraseIdx i }) :
    WaitsMatch none (op.run env now { st with outbox := st.outbox.eraseIdx i }) := by
  have htokens' := htokens.settles (.refl _) (st.outbox.eraseIdx i)
  cases hmessage : (st.outbox.get i).message with
  | advance | execute id claim => exact (h.take i (by rw [hmessage]; simp)).run htokens' hkeeps
  | resume token outcome decision =>
    rw [hmessage] at hhandles
    cases op with
    | resume token' outcome' decision' advances =>
      obtain ⟨rfl, rfl, rfl, -⟩ := hhandles
      have htaken : WaitsMatch (some token') { st with outbox := st.outbox.eraseIdx i } := by
        refine h.take i fun token outcome decision hsame ↦ ?_
        rw [hmessage] at hsame
        rw [(Message.resume.inj hsame).1]
      have houtcome := hvalid _ (List.get_mem st.outbox i) token' outcome' decision' hmessage
      have hexempt : ∀ other, some token' = some other → other = token' :=
        fun other hother ↦ (Option.some.inj hother).symm
      unfold Op.run
      split
      · rename_i st' hop
        rw [Op.apply] at hop
        exact htaken.of_resume htokens' hexempt (hkeeps houtcome) hop
      · rename_i exc hop
        rw [Op.apply] at hop
        exact htaken.of_resume_error htokens' hexempt houtcome hop
    | _ => exact absurd hhandles (by simp [Op.Handles])

theorem waitsMatch_startRun (env : EngineEnv) (now : Time) (mode : StartMode)
    (triggerPayload snapshot : JsonObject) :
    WaitsMatch none (startRun env now mode triggerPayload snapshot) ∧
      ValidMessages (startRun env now mode triggerPayload snapshot).outbox := by
  have hcreated : WaitsMatch none
      { run :=
          { status := .running
            triggerPayload := triggerPayload
            contextSnapshot := snapshot
            startedAt := some now }
        nodes := startTable env.graph } := by
    refine ⟨by simp, nodup_nil, ?_⟩
    intro id row hrow hwaiting
    rw [find_startTable] at hrow
    split_ifs at hrow
    obtain ⟨node, -, rfl⟩ := map_eq_some_iff.mp hrow
    simp only [startRow] at hwaiting
    split_ifs at hwaiting
  have hvalid : ValidMessages [] := fun _ hmem ↦ absurd hmem not_mem_nil
  have hkept : ∀ {before after : EngineState}, WaitsMatch none before → ValidMessages before.outbox →
      KeepsPauses (fun _ ↦ False) before after → WaitsMatch none after ∧ ValidMessages after.outbox :=
    fun hbefore hmessages hkeeps ↦
      ⟨hbefore.keepsPauses hkeeps fun _ _ hfalse ↦ hfalse.elim, hmessages.keepsPauses hkeeps⟩
  cases mode with
  | inline => exact hkept hcreated hvalid (advance_keepsPauses _)
  | enqueued => exact hkept hcreated hvalid (sendAdvance_keepsPauses now _)
  | idle => exact ⟨hcreated, hvalid⟩

/-- Waits and waiting nodes correspond in every state of a run whose operations all meet the
condition. -/
theorem waits_match_waiting_nodes {st : EngineState}
    (hst : Reachable env (fun _ op st ↦ KeepsWaits env.graph op st) st) : WaitsMatch none st := by
  obtain ⟨now, mode, triggerPayload, snapshot, hrun⟩ := hst
  obtain ⟨hmatch, hvalid⟩ := waitsMatch_startRun env now mode triggerPayload snapshot
  refine (ReflTransGen.invariant (P := fun st ↦
    WaitTokens env st ∧ ValidMessages st.outbox ∧ WaitsMatch none st) ?_ hrun
    ⟨waitTokens_startRun env now mode triggerPayload snapshot, hvalid, hmatch⟩).2.2
  rintro st st' ⟨htokens, hvalid, hmatch⟩ hstep
  cases hstep with
  | call now op _ hkeeps => exact ⟨htokens.run op, hvalid.run, hmatch.run htokens hkeeps⟩
  | deliver now op _ i _ hhandles hkeeps =>
    have htaken : ValidMessages ({ st with outbox := st.outbox.eraseIdx i } : EngineState).outbox :=
      hvalid.eraseIdx i
    exact ⟨(htokens.settles (.refl _) (st.outbox.eraseIdx i)).run op, htaken.run,
      hmatch.deliver htokens hvalid i hhandles hkeeps⟩

end Runs

/-- The paused delay has its pending wait. -/
theorem pausedDelay_waits_match :
    pausedDelay.waits.map (fun wait ↦ (wait.nodeRun, wait.resumeToken, decide (wait.status = .pending))) =
        [(⟨"d", ""⟩, 3, true)] ∧
      WaitsMatch none pausedDelay := by
  have hst : Reachable (catalogueEnv delayGraph repairedGlobals)
      (fun _ op st ↦ KeepsWaits delayGraph op st) pausedDelay :=
    reachable_play 0 .inline [] [] ⟨trivial, trivial, trivial⟩
  exact ⟨by decide +kernel, waits_match_waiting_nodes hst⟩

/-! ### A wait without its node -/

def waitPerItemGraph : WorkflowGraph where
  nodes :=
    [{ id := "t", type := "manual_trigger" }, { id := "f", type := "fan_out" },
      { id := "s", type := "summarize" }, { id := "w", type := "wait" }]
  edges :=
    [{ source := "t", target := "f" }, { source := "f", target := "s" },
      { source := "s", target := "w" }]

/-- The first item waits for its event, the summary of the second fails, and the operator retries from
the summary. -/
def waitPerItemCalls : List (Time × Op) :=
  [(1, execSucceeds "t" "" 0 [("payload", .obj []), ("trigger_type", .str "manual_trigger")]),
    (2, execSucceeds "f" "" 2
      [("items", .arr [.str "a", .str "b"]), ("count", .int 2), ("mode", .str "generic")]),
    (3, execSucceeds "s" "a" 4 [("text", .str "summary"), ("provider", .str "llm")]),
    (4, execReturns "w" "a" 7
      { status := .waiting
        output := [("status", .str "pending"), ("event", .str "callback")]
        waitingReason := some "event_pending" }),
    (5, execReturns "s" "b" 5
      { status := .failed
        error := some [("code", .str "invalid_text"), ("message", .str "invalid text"),
          ("error_class", .str "validation")] }),
    (6, .retryFromNode "s")]

def waitPerItemRun : EngineState :=
  (catalogueEnv waitPerItemGraph repairedGlobals).play waitPerItemCalls
    (startRun (catalogueEnv waitPerItemGraph repairedGlobals) 0 .inline [] [])

/-- `retry_from_node` resets the waiting row of the first item, whose wait stays pending. -/
theorem pending_wait_of_reset_row :
    graphValid catalogue (fun _ ↦ []) waitPerItemGraph {} ∧
      Reachable (catalogueEnv waitPerItemGraph repairedGlobals) anyOp waitPerItemRun ∧
      ¬ WaitsMatch none waitPerItemRun := by
  have hwaits : waitPerItemRun.waits.map
      (fun wait ↦ (wait.nodeRun, decide (wait.status = .pending))) = [(⟨"w", "a"⟩, true)] := by
    decide +kernel
  have hstatus : (waitPerItemRun.nodes.find ⟨"w", "a"⟩).map NodeRun.status = some .pending := by
    decide +kernel
  refine ⟨by decide +kernel, reachable_play 0 .inline [] [] (permits_anyOp _ _ _), fun hmatch ↦ ?_⟩
  have hmem : ((⟨"w", "a"⟩, true) : RowId × Bool) ∈ waitPerItemRun.waits.map
      fun wait ↦ (wait.nodeRun, decide (wait.status = .pending)) := by
    rw [hwaits]
    exact mem_singleton.mpr rfl
  obtain ⟨wait, hwait, hcolumns⟩ := List.mem_map.mp hmem
  obtain ⟨hnode, hpending⟩ := Prod.mk.injEq _ _ _ _ ▸ hcolumns
  obtain ⟨row, hrow, hwaiting, -⟩ := hmatch.pending wait hwait (of_decide_eq_true hpending)
  rw [hnode] at hrow
  rw [hrow, map_some, hwaiting] at hstatus
  exact absurd hstatus (by decide)

end ContentGenerator.Workflows

import ContentGenerator.Workflows.Pauses

/-!
# Resume tokens and waits in every reachable state

The facts about tokens and waits that hold whatever operations are called, operator retries and event
resolutions included: `Reachable.waitTokens`. A resume token is on one row at most and was drawn
before, a waiting row has one, and the pending wait of a row of a type that waits was created by the
pause the row is in.

A wait changes after its creation only by being settled (`Wait.Settles`), so the invariant has two
step lemmas: `WaitTokens.step` for everything but a pause, and `WaitTokens.attempted` for an execution.
-/

namespace ContentGenerator.Workflows

open Lib Relation List Option NodeTable Except

variable {entry : RowId × NodeRun} {id : RowId} {nodeId : String} {token : ℕ} {row : NodeRun}
  {st : EngineState} {env : EngineEnv} {now : Time}

/-! ### Settling waits -/

/-- What happens to a wait after its creation: it may be settled, and is not touched while it is
pending. -/
structure Wait.Settles (wait wait' : Wait) : Prop where
  id : wait'.id = wait.id
  nodeRun : wait'.nodeRun = wait.nodeRun
  resumeToken : wait'.resumeToken = wait.resumeToken
  pending : wait'.status = .pending → wait' = wait

theorem Wait.Settles.refl (wait : Wait) : wait.Settles wait := ⟨rfl, rfl, rfl, fun _ ↦ rfl⟩

def SettlesWaits (waits waits' : List Wait) : Prop := List.Forall₂ Wait.Settles waits waits'

theorem SettlesWaits.refl (waits : List Wait) : SettlesWaits waits waits :=
  forall₂_same.mpr fun wait _ ↦ .refl wait

variable {waits waits' : List Wait} {wait : Wait} {outcome : String} {st' : EngineState}
  {decision : JsonObject}

theorem settlesWaits_map {f : Wait → Wait} (h : ∀ wait : Wait, wait.Settles (f wait)) :
    SettlesWaits waits (waits.map f) := by
  unfold SettlesWaits
  rw [forall₂_map_right_iff]
  exact forall₂_same.mpr fun wait _ ↦ h wait

theorem SettlesWaits.map_id (h : SettlesWaits waits waits') :
    waits'.map Wait.id = waits.map Wait.id := by
  induction h with
  | nil => rfl
  | cons hhead _ ih => rw [map_cons, map_cons, hhead.id, ih]

/-- A wait that is pending afterwards was there before. -/
theorem SettlesWaits.mem_of_pending (h : SettlesWaits waits waits')
    (hmem : wait ∈ waits') (hpending : wait.status = .pending) : wait ∈ waits := by
  induction h with
  | nil => simp at hmem
  | cons hhead _ ih =>
    rcases mem_cons.mp hmem with rfl | htail
    · rw [hhead.pending hpending]
      exact mem_cons_self
    · exact mem_cons_of_mem _ (ih htail)

theorem SettlesWaits.mem (h : SettlesWaits waits waits') {wait' : Wait}
    (hmem : wait' ∈ waits') : ∃ wait ∈ waits, wait.Settles wait' := by
  induction h with
  | nil => simp at hmem
  | cons hhead _ ih =>
    rcases mem_cons.mp hmem with rfl | htail
    · exact ⟨_, mem_cons_self, hhead⟩
    · obtain ⟨wait, hwait, hsettles⟩ := ih htail
      exact ⟨wait, mem_cons_of_mem _ hwait, hsettles⟩

def pendingUnder (token : ℕ) (waits : List Wait) : List Wait :=
  waits.filter fun wait ↦ wait.resumeToken = token ∧ wait.status = .pending

theorem mem_pendingUnder :
    wait ∈ pendingUnder token waits ↔
      wait ∈ waits ∧ wait.resumeToken = token ∧ wait.status = .pending := by
  simp [pendingUnder]

theorem SettlesWaits.pending_sublist (h : SettlesWaits waits waits') :
    (waits'.filter fun wait ↦ wait.status = .pending).Sublist
      (waits.filter fun wait ↦ wait.status = .pending) := by
  induction h with
  | nil => exact .slnil
  | @cons wait wait' waits waits' hhead _ ih =>
    by_cases hpending : wait'.status = .pending
    · have hsame := hhead.pending hpending
      rw [hsame] at hpending ⊢
      rw [filter_cons_of_pos (by simpa using hpending),
        filter_cons_of_pos (by simpa using hpending)]
      exact ih.cons_cons wait
    · rw [filter_cons_of_neg (by simpa using hpending)]
      refine ih.trans (List.Sublist.filter _ ?_)
      exact sublist_cons_self _ _

theorem SettlesWaits.pendingUnder_le (h : SettlesWaits waits waits')
    (token : ℕ) : (pendingUnder token waits').length ≤ (pendingUnder token waits).length := by
  have hsplit : ∀ list : List Wait, pendingUnder token list =
      (list.filter fun wait ↦ wait.status = .pending).filter fun wait ↦ wait.resumeToken = token := by
    intro list
    simp [pendingUnder, List.filter_filter]
  rw [hsplit, hsplit]
  exact (h.pending_sublist.filter _).length_le

theorem resolve_settles (outcome : String) (payloadUpdate : JsonObject) (wait : Wait) :
    wait.Settles (wait.resolve now outcome payloadUpdate) :=
  ⟨rfl, rfl, rfl, fun h ↦ absurd h (by simp [Wait.resolve])⟩

/-- A rewrite of the wait with one id leaves the others in the list. -/
theorem mem_map_of_ne (hids : (waits.map Wait.id).Nodup) {pending : Wait}
    (hpending : pending ∈ waits) (hmem : wait ∈ waits) (hne : wait ≠ pending) (f : Wait → Wait) :
    wait ∈ waits.map fun other ↦ if other.id = pending.id then f other else other := by
  refine List.mem_map.mpr ⟨wait, hmem, if_neg fun hid ↦ hne ?_⟩
  exact inj_on_of_nodup_map hids hmem hpending hid

theorem markWaitResolvedByResumeToken_spec {payloadUpdate : JsonObject}
    (h : markWaitResolvedByResumeToken now token outcome payloadUpdate waits = .ok waits') :
    SettlesWaits waits waits' ∧ pendingUnder token waits' = [] ∧
      ((waits.map Wait.id).Nodup → ∀ wait ∈ waits, wait.resumeToken ≠ token → wait ∈ waits') := by
  unfold markWaitResolvedByResumeToken at h
  dsimp only at h
  split at h
  · rename_i hnone
    cases h
    exact ⟨.refl _, hnone, fun _ wait hmem _ ↦ hmem⟩
  · rename_i pending hone
    cases h
    have hsettles : SettlesWaits waits (waits.map fun wait ↦
        if wait.id = pending.id then wait.resolve now outcome payloadUpdate else wait) := by
      refine settlesWaits_map fun wait ↦ ?_
      split_ifs
      · exact resolve_settles _ _ wait
      · exact .refl wait
    have hfound : pending ∈ pendingUnder token waits := by
      rw [pendingUnder, hone]
      exact mem_singleton.mpr rfl
    obtain ⟨hmemPending, htokenPending, -⟩ := mem_pendingUnder.mp hfound
    refine ⟨hsettles, eq_nil_iff_forall_not_mem.mpr fun wait hmem ↦ ?_,
      fun hids wait hmem hne ↦ mem_map_of_ne hids hmemPending hmem ?_ _⟩
    · obtain ⟨hwait, htoken, hpending⟩ := mem_pendingUnder.mp hmem
      have hold : wait ∈ pendingUnder token waits :=
        mem_pendingUnder.mpr ⟨hsettles.mem_of_pending hwait hpending, htoken, hpending⟩
      rw [pendingUnder, hone, mem_singleton] at hold
      obtain ⟨old, -, hmapped⟩ := List.mem_map.mp hwait
      split_ifs at hmapped with hid
      · rw [← hmapped] at hpending
        exact absurd hpending (by simp [Wait.resolve])
      · rw [hmapped, hold] at hid
        exact hid rfl
    · rintro rfl
      exact hne htokenPending
  · simp at h

theorem resolveWaitByEventKey_spec {eventKey : String} {payload : JsonObject} {resolved : Option ℕ × List Wait}
    (h : resolveWaitByEventKey now eventKey payload waits = .ok resolved) :
    SettlesWaits waits resolved.2 ∧ (resolved.1 = none → resolved.2 = waits) ∧
      ∀ token, resolved.1 = some token → ∃ pending ∈ waits,
        (waits.filter fun wait ↦ wait.eventKey = some eventKey ∧ wait.status = .pending) =
          [pending] ∧ pending.resumeToken = token ∧
        (∀ wait ∈ resolved.2, wait.status = .pending → wait ≠ pending) ∧
        ((waits.map Wait.id).Nodup → ∀ wait ∈ waits, wait ≠ pending → wait ∈ resolved.2) := by
  unfold resolveWaitByEventKey at h
  dsimp only at h
  split at h
  · cases h
    exact ⟨.refl _, fun _ ↦ rfl, by simp⟩
  · rename_i pending hone
    cases h
    have hmemPending : pending ∈ waits := by
      have hfound : pending ∈ waits.filter fun wait ↦
          wait.eventKey = some eventKey ∧ wait.status = .pending := by
        rw [hone]
        exact mem_singleton.mpr rfl
      exact mem_of_mem_filter hfound
    refine ⟨settlesWaits_map fun wait ↦ ?_, by simp, fun token htoken ↦
      ⟨pending, hmemPending, hone, ?_, ?_, fun hids wait hmem hne ↦
        mem_map_of_ne hids hmemPending hmem hne _⟩⟩
    · split_ifs
      · exact resolve_settles _ _ wait
      · exact .refl wait
    · simpa using htoken
    · intro wait hmem hpending hsame
      obtain ⟨old, -, hmapped⟩ := List.mem_map.mp hmem
      split_ifs at hmapped with hid
      · rw [← hmapped] at hpending
        exact absurd hpending (by simp [Wait.resolve])
      · rw [hmapped, hsame] at hid
        exact hid rfl
  · simp at h

theorem wakeDueWaits_settles (limit : ℕ) (st : EngineState) :
    SettlesWaits st.waits (wakeDueWaits now limit st).waits := by
  refine settlesWaits_map fun wait ↦ ?_
  split_ifs
  · exact resolve_settles _ _ wait
  · exact .refl wait

/-! ### The invariant -/

structure WaitTokens (env : EngineEnv) (st : EngineState) : Prop where
  ids : st.waits.map Wait.id = range st.waits.length
  rowBound : ∀ id row token, st.nodes.find id = some row → row.resumeToken = some token →
    token < st.nextToken
  waitBound : ∀ wait ∈ st.waits, wait.resumeToken < st.nextToken
  distinct : ∀ id id' row row' token, st.nodes.find id = some row → st.nodes.find id' = some row' →
    row.resumeToken = some token → row'.resumeToken = some token → id = id'
  waiting : ∀ id row, st.nodes.find id = some row → row.status = .waiting → row.resumeToken.isSome
  owner : ∀ wait ∈ st.waits, wait.status = .pending → ∀ id row, st.nodes.find id = some row →
    row.resumeToken = some wait.resumeToken →
      wait.nodeRun = id ∧ (row.status = .waiting ∨ row.nodeType ∉ waitTypes)
  single : ∀ id row token, st.nodes.find id = some row → row.nodeType ∈ waitTypes →
    row.resumeToken = some token → (pendingUnder token st.waits).length ≤ 1
  origin : ∀ wait ∈ st.waits, wait.status = .pending → ∀ row,
    st.nodes.find wait.nodeRun = some row → row.resumeToken = some wait.resumeToken →
      row.nodeType ∈ waitTypes → ∃ moment,
        (persistWaitingNode env.render env.parseResumeAt env.isoFormat moment wait.nodeRun row wait.id
          row.outputJson row.waitingReason).1 = [wait]

/-- The invariant under everything but a pause. Assumes: a released row that keeps its token and is of
a type that waits has no pending wait left. -/
theorem WaitTokens.step {released : RowId → Prop} (h : WaitTokens env st)
    (hnodes : Unpauses released st.nodes st'.nodes) (hwaits : SettlesWaits st.waits st'.waits)
    (hnext : st.nextToken ≤ st'.nextToken)
    (hreleased : ∀ id row' token, released id → st'.nodes.find id = some row' →
      row'.resumeToken = some token → row'.nodeType ∈ waitTypes → pendingUnder token st'.waits = []) :
    WaitTokens env st' where
  ids := by rw [hwaits.map_id, h.ids, hwaits.length_eq]
  rowBound := by
    intro id row' token hrow' htoken
    obtain ⟨row, hrow, hold, -⟩ := hnodes.find_of_token hrow' htoken
    exact (h.rowBound id row token hrow hold).trans_le hnext
  waitBound := by
    intro wait' hmem
    obtain ⟨wait, hwait, hsettles⟩ := hwaits.mem hmem
    rw [hsettles.resumeToken]
    exact (h.waitBound wait hwait).trans_le hnext
  distinct := by
    intro id id' row row' token hrow hrow' htoken htoken'
    obtain ⟨old, hold, holdToken, -⟩ := hnodes.find_of_token hrow htoken
    obtain ⟨old', hold', holdToken', -⟩ := hnodes.find_of_token hrow' htoken'
    exact h.distinct id id' old old' token hold hold' holdToken holdToken'
  waiting := by
    intro id row hrow hwaiting
    exact h.waiting id row (hnodes.find_of_waiting hrow hwaiting) hwaiting
  owner := by
    intro wait hmem hpending id row' hrow' htoken
    obtain ⟨row, hrow, hold, hstep⟩ := hnodes.find_of_token hrow' htoken
    obtain ⟨hid, hcase⟩ := h.owner wait (hwaits.mem_of_pending hmem hpending) hpending id row hrow hold
    refine ⟨hid, ?_⟩
    rw [hstep.nodeType]
    rcases hcase with hwaiting | htype
    · by_cases htype : row.nodeType ∈ waitTypes
      · by_cases hrel : released id
        · have hnone := hreleased id row' _ hrel hrow' htoken (by rwa [hstep.nodeType])
          have hmem' : wait ∈ pendingUnder wait.resumeToken st'.waits :=
            mem_pendingUnder.mpr ⟨hmem, rfl, hpending⟩
          rw [hnone] at hmem'
          simp at hmem'
        · rw [hstep.kept (by rw [hwaiting]; decide) hrel]
          exact .inl hwaiting
      · exact .inr htype
    · exact .inr htype
  single := by
    intro id row' token hrow' htype htoken
    obtain ⟨row, hrow, hold, hstep⟩ := hnodes.find_of_token hrow' htoken
    rw [hstep.nodeType] at htype
    exact (hwaits.pendingUnder_le token).trans (h.single id row token hrow htype hold)
  origin := by
    intro wait hmem hpending row' hrow' htoken htype
    have hold := hwaits.mem_of_pending hmem hpending
    obtain ⟨row, hrow, htoken', hstep⟩ := hnodes.find_of_token hrow' htoken
    have htype' : row.nodeType ∈ waitTypes := by rwa [hstep.nodeType] at htype
    by_cases hrel : released wait.nodeRun
    · have hnone := hreleased wait.nodeRun row' _ hrel hrow' htoken htype
      have hmem' : wait ∈ pendingUnder wait.resumeToken st'.waits :=
        mem_pendingUnder.mpr ⟨hmem, rfl, hpending⟩
      rw [hnone] at hmem'
      simp at hmem'
    · obtain ⟨-, hwaiting | hother⟩ := h.owner wait hold hpending _ row hrow htoken'
      · rw [hstep.kept (by rw [hwaiting]; decide) hrel]
        exact h.origin wait hold hpending row hrow htoken' htype'
      · exact absurd htype' hother

theorem WaitTokens.nodup_ids (h : WaitTokens env st) :
    (st.waits.map Wait.id).Nodup := by
  rw [h.ids]
  exact nodup_range

/-- The parts of operations that leave waits and pauses alone. -/
theorem WaitTokens.keepsPauses (h : WaitTokens env st)
    (hkeeps : KeepsPauses (fun _ ↦ False) st st') : WaitTokens env st' :=
  h.step hkeeps.nodes (hkeeps.waits ▸ .refl _) hkeeps.nextToken fun _ _ _ hfalse ↦ hfalse.elim

/-- A row of a type that waits has no pending wait under its token unless it is waiting. -/
theorem WaitTokens.pendingUnder_eq_nil (h : WaitTokens env st)
    (hrow : st.nodes.find id = some row) (hstatus : row.status ≠ .waiting)
    (htype : row.nodeType ∈ waitTypes) (htoken : row.resumeToken = some token) :
    pendingUnder token st.waits = [] := by
  refine eq_nil_iff_forall_not_mem.mpr fun wait hmem ↦ ?_
  obtain ⟨hwait, hsame, hpending⟩ := mem_pendingUnder.mp hmem
  rcases (h.owner wait hwait hpending id row hrow (by rw [htoken, hsame])).2 with hwaiting | hother
  · exact hstatus hwaiting
  · exact hother htype

theorem pendingUnder_append (token : ℕ) (waits created : List Wait) :
    pendingUnder token (waits ++ created) =
      pendingUnder token waits ++ pendingUnder token created :=
  filter_append _ _

section Pause

variable {settled : EngineState} {row' : NodeRun}

theorem WaitTokens.token_settled (h : WaitTokens env st) (hrow : st.nodes.find id = some row)
    (hpause : PauseEffect env st id row row' settled)
    (htoken : row'.resumeToken = some token) :
    token < settled.nextToken ∧
      (row.resumeToken = some token ∨ (row.resumeToken = none ∧ st.nextToken ≤ token)) := by
  rcases hpause.resumeToken with hsame | ⟨hnone, fresh, hlow, hhigh, hfresh⟩
  · have hold : row.resumeToken = some token := hsame ▸ htoken
    exact ⟨(h.rowBound id row token hrow hold).trans_le hpause.nextToken, .inl hold⟩
  · obtain rfl := mem_unique htoken hfresh
    exact ⟨hhigh, .inr ⟨hnone, hlow⟩⟩

theorem WaitTokens.token_settled_ne (h : WaitTokens env st) (hrow : st.nodes.find id = some row)
    (hpause : PauseEffect env st id row row' settled)
    (htoken : row'.resumeToken = some token) {other : RowId} {otherRow : NodeRun}
    (hother : st.nodes.find other = some otherRow) (hotherToken : otherRow.resumeToken = some token) :
    other = id := by
  rcases (h.token_settled hrow hpause htoken).2 with hold | ⟨-, hlow⟩
  · exact h.distinct other id otherRow row token hother hrow hotherToken hold
  · exact absurd (h.rowBound other otherRow token hother hotherToken) (Nat.not_lt.mpr hlow)

/-- A wait of the state before that is pending under the token of a settled row: the row is of a type
that does not resolve its waits. -/
theorem WaitTokens.old_wait (h : WaitTokens env st) (hrow : st.nodes.find id = some row)
    (hclaimed : row.status.isClaimed) (hpause : PauseEffect env st id row row' settled) {wait : Wait}
    (hwait : wait ∈ st.waits) (hpending : wait.status = .pending)
    (htoken : row'.resumeToken = some wait.resumeToken) :
    wait.nodeRun = id ∧ row.nodeType ∉ waitTypes := by
  rcases (h.token_settled hrow hpause htoken).2 with hold | ⟨-, hlow⟩
  · obtain ⟨hid, hwaiting | htype⟩ := h.owner wait hwait hpending id row hrow hold
    · rw [hwaiting] at hclaimed
      exact absurd hclaimed (by decide)
    · exact ⟨hid, htype⟩
  · exact absurd (h.waitBound wait hwait) (Nat.not_lt.mpr hlow)

/-- The invariant right after an attempt has been settled. -/
theorem WaitTokens.settle (h : WaitTokens env st) (hrow : st.nodes.find id = some row)
    (hclaimed : row.status.isClaimed) (htype : row'.nodeType = row.nodeType)
    (hpause : PauseEffect env st id row row' settled)
    (hnodes : settled.nodes = st.nodes.put id row') : WaitTokens env settled := by
  obtain ⟨created, hwaits, hlength, hcreated, -⟩ := hpause.waits
  have hself : settled.nodes.find id = some row' := hnodes ▸ find_put_self _ _ hrow
  have hother : ∀ {other : RowId}, other ≠ id → settled.nodes.find other = st.nodes.find other :=
    fun hne ↦ hnodes ▸ find_put_of_ne _ _ hne
  have hdistinct : ∀ {other : RowId} {otherRow : NodeRun} {token : ℕ},
      settled.nodes.find other = some otherRow → otherRow.resumeToken = some token →
      row'.resumeToken = some token → other = id := by
    intro other otherRow token hfind hotherToken htoken
    by_contra hne
    rw [hother hne] at hfind
    exact hne (h.token_settled_ne hrow hpause htoken hfind hotherToken)
  constructor
  · rw [hwaits, map_append, h.ids, length_append]
    cases created with
    | nil => simp
    | cons wait rest =>
      obtain rfl : rest = [] := length_eq_zero_iff.mp (by simpa using hlength)
      rw [map_singleton, (hcreated wait (mem_singleton.mpr rfl)).2.1]
      simp [range_succ]
  · intro other otherRow token hfind htoken
    by_cases hne : other = id
    · subst hne
      obtain rfl := mem_unique hself hfind
      exact (h.token_settled hrow hpause htoken).1
    · rw [hother hne] at hfind
      exact (h.rowBound other otherRow token hfind htoken).trans_le hpause.nextToken
  · intro wait hmem
    rw [hwaits] at hmem
    rcases mem_append.mp hmem with hold | hnew
    · exact (h.waitBound wait hold).trans_le hpause.nextToken
    · exact (h.token_settled hrow hpause (hcreated wait hnew).2.2.2.1).1
  · intro other other' otherRow otherRow' token hfind hfind' htoken htoken'
    by_cases hne : other = id
    · subst hne
      obtain rfl := mem_unique hself hfind
      exact (hdistinct hfind' htoken' htoken).symm
    · by_cases hne' : other' = id
      · subst hne'
        obtain rfl := mem_unique hself hfind'
        exact hdistinct hfind htoken htoken'
      · rw [hother hne] at hfind
        rw [hother hne'] at hfind'
        exact h.distinct other other' otherRow otherRow' token hfind hfind' htoken htoken'
  · intro other otherRow hfind hwaiting
    by_cases hne : other = id
    · subst hne
      obtain rfl := mem_unique hself hfind
      exact hpause.waiting hwaiting
    · rw [hother hne] at hfind
      exact h.waiting other otherRow hfind hwaiting
  · intro wait hmem hpending other otherRow hfind htoken
    rw [hwaits] at hmem
    rcases mem_append.mp hmem with hold | hnew
    · by_cases hne : other = id
      · subst hne
        obtain rfl := mem_unique hself hfind
        obtain ⟨hid, hnot⟩ := h.old_wait hrow hclaimed hpause hold hpending htoken
        exact ⟨hid, .inr (htype ▸ hnot)⟩
      · rw [hother hne] at hfind
        exact h.owner wait hold hpending other otherRow hfind htoken
    · obtain ⟨hwaiting, -, hnode, hwaitToken, -⟩ := hcreated wait hnew
      obtain rfl := hdistinct hfind htoken hwaitToken
      obtain rfl := mem_unique hself hfind
      exact ⟨hnode, .inl hwaiting⟩
  · intro other otherRow token hfind hotherType htoken
    rw [hwaits, pendingUnder_append, length_append]
    by_cases hne : other = id
    · subst hne
      obtain rfl := mem_unique hself hfind
      have hnone : pendingUnder token st.waits = [] := by
        refine eq_nil_iff_forall_not_mem.mpr fun wait hmem ↦ ?_
        obtain ⟨hwait, rfl, hpending⟩ := mem_pendingUnder.mp hmem
        exact (h.old_wait hrow hclaimed hpause hwait hpending htoken).2 (htype ▸ hotherType)
      rw [hnone, length_nil, Nat.zero_add]
      exact (length_filter_le _ _).trans hlength
    · have hnone : pendingUnder token created = [] := by
        refine eq_nil_iff_forall_not_mem.mpr fun wait hmem ↦ ?_
        obtain ⟨hwait, rfl, -⟩ := mem_pendingUnder.mp hmem
        exact hne (hdistinct hfind htoken (hcreated wait hwait).2.2.2.1)
      rw [hnone, length_nil, Nat.add_zero]
      rw [hother hne] at hfind
      exact h.single other otherRow token hfind hotherType htoken
  · intro wait hmem hpending otherRow hfind htoken hotherType
    rw [hwaits] at hmem
    rcases mem_append.mp hmem with hold | hnew
    · by_cases hne : wait.nodeRun = id
      · rw [hne, hself] at hfind
        cases hfind
        exact absurd (htype ▸ hotherType) (h.old_wait hrow hclaimed hpause hold hpending htoken).2
      · rw [hother hne] at hfind
        exact h.origin wait hold hpending otherRow hfind htoken hotherType
    · obtain ⟨-, -, hnode, -, -, hmoment⟩ := hcreated wait hnew
      rw [hnode, hself] at hfind
      cases hfind
      rw [hnode]
      exact hmoment

/-- The invariant under an execution. -/
theorem WaitTokens.attempted {st' : EngineState} (h : WaitTokens env st)
    (hattempted : Attempted env st id row row' settled st') : WaitTokens env st' := by
  have hsettled := h.settle hattempted.find hattempted.claimed hattempted.nodeType hattempted.pause
    hattempted.nodes
  refine hsettled.step hattempted.rest.nodes (hattempted.rest.waits ▸ .refl _)
    hattempted.rest.nextToken ?_
  rintro other last token ⟨rfl, hstatus⟩ hlast htoken htype
  have hself : settled.nodes.find other = some row' :=
    hattempted.nodes ▸ find_put_self _ _ hattempted.find
  obtain ⟨last', hlast', hstep⟩ := hattempted.rest.nodes.kept other row' hself
  obtain rfl := mem_unique hlast hlast'
  rw [hattempted.rest.waits]
  rw [hstep.nodeType] at htype
  exact hsettled.pendingUnder_eq_nil hself hstatus htype (hstep.resumeToken token htoken)

end Pause

/-! ### The operations -/

theorem markResumed_spec (h : markResumed now token outcome decision row waits = .ok waits') :
    SettlesWaits waits waits' ∧ (row.nodeType ∈ waitTypes → pendingUnder token waits' = []) ∧
      ((waits.map Wait.id).Nodup → ∀ wait ∈ waits, wait.resumeToken ≠ token → wait ∈ waits') := by
  unfold markResumed at h
  by_cases htype : row.nodeType ∈ ["delay", "wait", "approval"]
  · rw [if_pos htype] at h
    obtain ⟨hsettles, hnone, hkept⟩ := markWaitResolvedByResumeToken_spec h
    exact ⟨hsettles, fun _ ↦ hnone, hkept⟩
  · rw [if_neg htype] at h
    cases h
    exact ⟨.refl _, fun hmem ↦ absurd hmem htype, fun _ _ hmem _ ↦ hmem⟩

theorem NodeTable.token_of_byResumeToken {t : NodeTable}
    (h : t.byResumeToken token = some entry) : entry.2.resumeToken = some token := by
  simpa using find?_some h

theorem WaitTokens.byResumeToken_eq (h : WaitTokens env st)
    (hrow : st.nodes.find id = some row)
    (htoken : row.resumeToken = some token) :
    st.nodes.byResumeToken token = some (id, row) := by
  have hmem : (id, row) ∈ st.nodes.entries := (KeyedTable.find_eq_some_iff _ _ _).mp hrow
  obtain ⟨entry, hentry⟩ : ∃ entry, st.nodes.byResumeToken token = some entry := by
    rw [← isSome_iff_exists, byResumeToken, find?_isSome]
    exact ⟨(id, row), hmem, by simpa using htoken⟩
  have hfind := find_of_byResumeToken hentry
  have hid := h.distinct entry.1 id entry.2 row token hfind hrow
    (NodeTable.token_of_byResumeToken hentry) htoken
  rw [hid] at hfind
  rw [hentry, ← hid, mem_unique hrow hfind]

theorem WaitTokens.resumes (h : WaitTokens env st)
    (hentry : st.nodes.byResumeToken token = some entry)
    (hmarked : markResumed now token outcome decision entry.2 st.waits = .ok waits)
    (hresumes : Resumes st entry.1 entry.2 waits st') : WaitTokens env st' := by
  obtain ⟨hsettles, hnone, -⟩ := markResumed_spec hmarked
  refine h.step hresumes.nodes (hresumes.waits ▸ hsettles) hresumes.nextToken ?_
  rintro id row' token' rfl hrow' htoken' htype
  obtain ⟨row, hrow, hold, hstep⟩ := hresumes.nodes.find_of_token hrow' htoken'
  obtain rfl := mem_unique hrow (find_of_byResumeToken hentry)
  have htoken := NodeTable.token_of_byResumeToken hentry
  obtain rfl := mem_unique htoken hold
  rw [hresumes.waits]
  exact hnone (by rwa [hstep.nodeType] at htype)

theorem WaitTokens.of_resume (h : WaitTokens env st) {advances : Bool}
    (hresume : resumeWaitingNode env now token outcome decision advances st = .ok st') :
    WaitTokens env st' := by
  obtain ⟨-, entry, hentry, ⟨-, rfl | ⟨-, rfl⟩⟩ | ⟨-, hrow⟩⟩ := resumeWaitingNode_eq_ok hresume
  · exact h
  · exact h.keepsPauses (advance_keepsPauses st)
  · obtain ⟨waits, hmarked, hresumes⟩ := resumeRow_eq_ok (find_of_byResumeToken hentry) hrow
    exact h.resumes hentry hmarked hresumes

/-- Settling waits keeps the invariant. -/
theorem WaitTokens.settles (h : WaitTokens env st)
    (hwaits : SettlesWaits st.waits waits) (outbox : List Envelope) :
    WaitTokens env { st with waits := waits, outbox := outbox } :=
  h.step (Unpauses.refl (fun _ ↦ False) _) hwaits le_rfl fun _ _ _ hfalse ↦ hfalse.elim

theorem cancelRun_waits (h : cancelRun now st = .ok st') :
    st' = st ∨ (SettlesWaits st.waits st'.waits ∧ (∀ wait ∈ st'.waits, wait.status ≠ .pending) ∧
      st'.nodes = st.nodes.mapValues (fun _ row ↦ row.cancel now) ∧ st'.outbox = st.outbox ∧
      st'.nextToken = st.nextToken) := by
  unfold cancelRun at h
  split_ifs at h
  · exact .inl (ok.inj h).symm
  · rw [← ok.inj h]
    refine .inr ⟨settlesWaits_map fun wait ↦ ?_, fun wait hmem ↦ ?_, rfl, rfl, rfl⟩
    · split_ifs with hpending
      · exact ⟨rfl, rfl, rfl, fun h ↦ absurd h (by simp)⟩
      · exact .refl wait
    · obtain ⟨old, -, rfl⟩ := List.mem_map.mp hmem
      split_ifs with hpending
      · exact WaitStatus.noConfusion
      · exact hpending

theorem WaitTokens.of_cancel (h : WaitTokens env st)
    (hcancel : cancelRun now st = .ok st') : WaitTokens env st' := by
  rcases cancelRun_waits hcancel with rfl | ⟨hsettles, hnone, hnodes, -, hnext⟩
  · exact h
  · refine h.step (hnodes ▸ cancel_unpauses now st.nodes) hsettles hnext.ge ?_
    intro _ _ token _ _ _ _
    refine eq_nil_iff_forall_not_mem.mpr fun wait hmem ↦ ?_
    obtain ⟨hwait, -, hpending⟩ := mem_pendingUnder.mp hmem
    exact hnone wait hwait hpending

theorem WaitTokens.of_retryNode (h : WaitTokens env st)
    (hretry : retryNode env now nodeId st = .ok st') : WaitTokens env st' := by
  obtain ⟨-, id, row, hrow, hfailed, rfl⟩ := retryNode_eq_ok hretry
  refine WaitTokens.keepsPauses ?_ (advance_keepsPauses _)
  refine h.step (resetFailedToReady_unpauses id st.nodes) (.refl _) le_rfl ?_
  rintro other row' token rfl hrow' htoken htype
  obtain ⟨old, hold, holdToken, hstep⟩ :=
    (resetFailedToReady_unpauses other st.nodes).find_of_token hrow' htoken
  obtain rfl := mem_unique hold hrow
  refine h.pendingUnder_eq_nil hrow ?_ (by rwa [hstep.nodeType] at htype) holdToken
  rw [hfailed]
  decide

theorem WaitTokens.of_retryFromNode (h : WaitTokens env st)
    (hretry : retryFromNode env now nodeId st = .ok st') : WaitTokens env st' := by
  obtain ⟨-, id, row, hlast, hfailed, rfl⟩ := retryFromNode_eq_ok hretry
  have hrow := (lastRow_eq_some hlast).1
  refine WaitTokens.keepsPauses ?_ (advance_keepsPauses _)
  obtain ⟨hresets, hchanged⟩ := resetSteps_unpauses (resetLoop_steps env.graph nodeId
    (st.nodes.modify id NodeRun.resetFailedToReady))
  have hfirst := resetFailedToReady_unpauses id st.nodes
  refine h.step (Unpauses.of_changed ((hfirst.mono fun _ _ ↦ trivial).trans hresets)) (.refl _)
    le_rfl ?_
  intro other row' token hdiffers hrow' htoken htype
  rcases hchanged other row' hrow' with hsame | hnone
  · by_cases hother : other = id
    · subst hother
      obtain ⟨old, hold, holdToken, hstep⟩ := hfirst.find_of_token hsame htoken
      obtain rfl := mem_unique hold hrow
      refine h.pendingUnder_eq_nil hrow ?_ (by rwa [hstep.nodeType] at htype) holdToken
      rw [hfailed]
      decide
    · rw [KeyedTable.find_modify_of_ne _ _ hother] at hsame
      exact absurd (hrow'.trans hsame.symm) hdiffers
  · rw [hnone] at htoken
    simp at htoken

/-- Every operation keeps the invariant. -/
theorem WaitTokens.apply (h : WaitTokens env st) {op : Op}
    (hop : op.apply env now st = .ok st') : WaitTokens env st' := by
  cases op with
  | advance =>
    rw [← ok.inj hop]
    exact h.keepsPauses (advance_keepsPauses st)
  | execute args token worker draw =>
    rcases (executeClaimedNodeRun_effect hop).pauses with hkeeps | ⟨row, row', settled, hattempted⟩
    · exact h.keepsPauses hkeeps
    · exact h.attempted hattempted
  | resume token outcome decision advances =>
    rw [Op.apply] at hop
    exact h.of_resume hop
  | resolveEvent eventKey payload =>
    obtain ⟨resolved, hresolved, rfl⟩ := resolveEvent_eq_ok hop
    exact h.settles (resolveWaitByEventKey_spec hresolved).1 st.outbox
  | resumeRun eventKey decision advances =>
    rw [Op.apply] at hop
    obtain ⟨token, waits, hresolved, hresume⟩ := resumeRun_eq_ok hop
    exact (h.settles (resolveWaitByEventKey_spec hresolved).1 st.outbox).of_resume hresume
  | recover limit draw =>
    rw [← ok.inj hop]
    exact h.keepsPauses (recoverStale_keepsPauses limit draw st)
  | wake limit =>
    rw [← ok.inj hop]
    exact h.settles (wakeDueWaits_settles limit st) _
  | cancel =>
    rw [Op.apply] at hop
    exact h.of_cancel hop
  | retryNode nodeId =>
    rw [Op.apply] at hop
    exact h.of_retryNode hop
  | retryFromNode nodeId =>
    rw [Op.apply] at hop
    exact h.of_retryFromNode hop

theorem WaitTokens.run (h : WaitTokens env st) (op : Op) :
    WaitTokens env (op.run env now st) := by
  unfold Op.run
  split
  · rename_i st' hop
    exact h.apply hop
  · exact h

theorem waitTokens_startRun (env : EngineEnv) (now : Time) (mode : StartMode)
    (triggerPayload snapshot : JsonObject) :
    WaitTokens env (startRun env now mode triggerPayload snapshot) := by
  have hrows : ∀ id row, (startTable env.graph).find id = some row →
      row.resumeToken = none ∧ row.status ≠ .waiting := by
    intro id row hrow
    rw [find_startTable] at hrow
    split_ifs at hrow
    obtain ⟨node, -, rfl⟩ := map_eq_some_iff.mp hrow
    refine ⟨rfl, ?_⟩
    simp only [startRow]
    split_ifs <;> decide
  have hcreated : WaitTokens env
      { run :=
          { status := .running
            triggerPayload := triggerPayload
            contextSnapshot := snapshot
            startedAt := some now }
        nodes := startTable env.graph } := by
    have hnone : ∀ id row token, (startTable env.graph).find id = some row →
        row.resumeToken ≠ some token := by
      intro id row token hrow
      rw [(hrows id row hrow).1]
      simp
    exact
      { ids := rfl
        rowBound := fun id row token hrow htoken ↦ absurd htoken (hnone id row token hrow)
        waitBound := by simp
        distinct := fun id _ row _ token hrow _ htoken _ ↦ absurd htoken (hnone id row token hrow)
        waiting := fun id row hrow hwaiting ↦ absurd hwaiting (hrows id row hrow).2
        owner := by simp
        single := fun _ _ _ _ _ _ ↦ Nat.zero_le _
        origin := by simp }
  cases mode with
  | inline => exact hcreated.keepsPauses (advance_keepsPauses _)
  | enqueued => exact hcreated.keepsPauses (sendAdvance_keepsPauses now _)
  | idle => exact hcreated

/-- The facts about tokens and waits hold in every reachable state. -/
theorem Reachable.waitTokens {allowed : Time → Op → EngineState → Prop}
    (hst : Reachable env allowed st) : WaitTokens env st := by
  obtain ⟨now, mode, triggerPayload, snapshot, hrun⟩ := hst
  refine ReflTransGen.invariant (P := WaitTokens env) ?_ hrun
    (waitTokens_startRun env now mode triggerPayload snapshot)
  intro st st' h hstep
  cases hstep with
  | call now op _ _ => exact h.run op
  | deliver now op _ i _ _ _ => exact (h.settles (.refl _) (st.outbox.eraseIdx i)).run op

/-- After any operations no token is shared, every waiting row has one, and the pending waits under the token of
a row name the row, of which a delay, a wait and an approval have one at most. -/
theorem tokens_and_waits (env : EngineEnv) (now : Time) (mode : StartMode) (payload snapshot : JsonObject)
    (calls : List (Time × Op)) : let st := env.play calls (startRun env now mode payload snapshot)
    (∀ id row, st.nodes.find id = some row → row.status = .waiting → row.resumeToken.isSome) ∧
      (∀ id id' row row' token, st.nodes.find id = some row → st.nodes.find id' = some row' →
        row.resumeToken = some token → row'.resumeToken = some token → id = id') ∧
      ∀ id row token, st.nodes.find id = some row → row.resumeToken = some token →
        (∀ wait ∈ pendingUnder token st.waits, wait.nodeRun = id) ∧
          (row.nodeType ∈ waitTypes → (pendingUnder token st.waits).length ≤ 1) := by
  have h := (reachable_play now mode payload snapshot (permits_anyOp env calls _)).waitTokens
  refine ⟨h.waiting, h.distinct, fun id row token hrow htoken ↦ ⟨fun wait hwait ↦ ?_, fun htype ↦ ?_⟩⟩
  · obtain ⟨hmem, hunder, hpending⟩ := mem_pendingUnder.mp hwait
    exact (h.owner wait hmem hpending id row hrow (htoken.trans (congrArg some hunder.symm))).1
  · exact h.single id row token hrow htype htoken

end ContentGenerator.Workflows

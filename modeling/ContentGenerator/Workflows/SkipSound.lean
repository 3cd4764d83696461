import ContentGenerator.Workflows.Inputs
import ContentGenerator.Workflows.Runs

/-!
# Soundness of skips

A row should be skipped only when every incoming edge of its node is dead: its source is skipped, or
succeeded with another branch (`DeadEdge`). The target of a non-matching edge is skipped whatever its
other predecessors do, so a call of `unlock_after_node_success` is sound (`SkipsSound`) exactly when
for every such target the other incoming edges are dead as well, or die in the same call
(`skipsSound_iff`).

`Doomed` is the set of nodes a call skips, defined on the rows before the call. That it skips all of them
needs that the queue of the cascade reaches every join whose last predecessor it skips (`Cascaded`).
-/

namespace ContentGenerator.Workflows

open Lib Relation List Option WorkflowGraph KeyedTable ReflTransGen
open NodeRun (skip status)
open NodeTable (get_eq_some get_modify mem_rowsOf rowsOf rowsOf_mapValues)

variable {f : NodeRun → NodeRun} {env : EngineEnv} {now : Time} {g : WorkflowGraph} {t t' : NodeTable}

/-! ### The cascade reaches every join -/

def NodeTable.canSkip (t : NodeTable) (nodeId : String) : Bool :=
  (t.get nodeId).any fun entry ↦ entry.2.status.isSkippable

variable {nodeId : String} {id : RowId}

theorem NodeTable.canSkip_iff :
    t.canSkip nodeId ↔ ∃ id row, t.get nodeId = some (id, row) ∧ row.status.isSkippable := by
  unfold NodeTable.canSkip
  cases hget : t.get nodeId with
  | none => simp
  | some entry =>
    obtain ⟨id, row⟩ := entry
    simp

/-- A rewrite of one row that makes nothing skippable. -/
theorem canSkip_modify
    (hf : ∀ row, t.find id = some row → (f row).status.isSkippable → row.status.isSkippable)
    (h : NodeTable.canSkip (t.modify id f) nodeId) : t.canSkip nodeId := by
  rw [NodeTable.canSkip_iff] at h ⊢
  obtain ⟨other, row', hget, hskippable⟩ := h
  rw [get_modify] at hget
  obtain ⟨⟨_, row⟩, hrow, hentry⟩ := map_eq_some_iff.mp hget
  cases hentry
  refine ⟨_, row, hrow, ?_⟩
  dsimp only at hskippable
  split_ifs at hskippable with hid
  · exact hf row (hid ▸ (get_eq_some hrow).1) hskippable
  · exact hskippable

theorem rowsOf_modify_of_ne
    (h : nodeId ≠ id.nodeId) : rowsOf (t.modify id f) nodeId = t.rowsOf nodeId := by
  rw [KeyedTable.modify, rowsOf_mapValues]
  refine (map_congr_left fun entry hentry ↦ ?_).trans (List.map_id _)
  have hnode := (mem_rowsOf.mp hentry).2
  have hid : entry.1 ≠ id := fun heq ↦ h (by rw [← hnode, heq])
  simp [hid]

/-- A rewrite that skips no row and takes no skip back. -/
theorem allPredsSkipped_modify_iff
    (hf : ∀ row, t.find id = some row → ((f row).status = .skipped ↔ row.status = .skipped))
    (nodeId : String) : allPredsSkipped g (t.modify id f) nodeId ↔ allPredsSkipped g t nodeId := by
  have hrows : ∀ source, ((rowsOf (t.modify id f) source).all
      fun entry ↦ entry.2.status = .skipped) =
        (t.rowsOf source).all fun entry ↦ entry.2.status = .skipped := by
    intro source
    rw [KeyedTable.modify, rowsOf_mapValues, List.all_map, Bool.eq_iff_iff,
      List.all_eq_true, List.all_eq_true]
    refine forall₂_congr fun entry hentry ↦ ?_
    dsimp only [Function.comp]
    split_ifs with hid
    · simpa using hf entry.2 (hid ▸ (mem_rowsOf.mp hentry).1)
    · rfl
  have hempty : ∀ source, (rowsOf (t.modify id f) source).isEmpty =
      (t.rowsOf source).isEmpty := by
    intro source
    rw [KeyedTable.modify, rowsOf_mapValues, isEmpty_map]
  simp only [allPredsSkipped, hrows, hempty]

theorem allPredsSkipped_of_skip (h : allPredsSkipped g (t.modify id (skip now)) nodeId) :
    allPredsSkipped g t nodeId ∨ ∃ edge ∈ g.successors id.nodeId, edge.target = nodeId := by
  by_cases hedge : ∃ edge ∈ g.successors id.nodeId, edge.target = nodeId
  · exact .inr hedge
  · left
    rw [allPredsSkipped_iff] at h ⊢
    refine ⟨h.1, fun edge hmem ↦ ?_⟩
    have hsource : edge.source ≠ id.nodeId := by
      intro hsource
      obtain ⟨hedges, htarget⟩ := mem_predecessors.mp hmem
      exact hedge ⟨edge, mem_successors.mpr ⟨hedges, hsource⟩, htarget⟩
    have hrows := h.2 edge hmem
    rwa [rowsOf_modify_of_ne hsource] at hrows

/-- What a call does to joins: nothing becomes skippable, and a node whose predecessors are all
skipped now, and were not before, cannot be skipped any more. -/
structure Cascaded (g : WorkflowGraph) (t t' : NodeTable) : Prop where
  canSkip : ∀ nodeId, t'.canSkip nodeId → t.canSkip nodeId
  joins : ∀ nodeId, allPredsSkipped g t' nodeId → allPredsSkipped g t nodeId ∨ ¬ t'.canSkip nodeId

theorem Cascaded.refl (t : NodeTable) : Cascaded g t t := ⟨fun _ h ↦ h, fun _ h ↦ .inl h⟩

theorem Cascaded.trans {t'' : NodeTable} (h : Cascaded g t t') (h' : Cascaded g t' t'') :
    Cascaded g t t'' := by
  refine ⟨fun nodeId hskip ↦ h.canSkip nodeId (h'.canSkip nodeId hskip), fun nodeId hskipped ↦ ?_⟩
  rcases h'.joins nodeId hskipped with hbefore | hdone
  · rcases h.joins nodeId hbefore with hfirst | hdone
    · exact .inl hfirst
    · exact .inr fun hskip ↦ hdone (h'.canSkip nodeId hskip)
  · exact .inr hdone

theorem cascaded_of_promotes (hstep : Promotes g t t') :
    Cascaded g t t' ∧ ∀ nodeId, allPredsSkipped g t' nodeId ↔ allPredsSkipped g t nodeId := by
  obtain ⟨_, id, row, hget, hpending, -⟩ := hstep
  have hrow : ∀ current, t.find id = some current → current.status = .pending := by
    intro current hcurrent
    rw [(get_eq_some hget).1] at hcurrent
    exact Option.some.inj hcurrent ▸ hpending
  have hpreds : ∀ nodeId, allPredsSkipped g (t.setStatus id .ready) nodeId ↔
      allPredsSkipped g t nodeId := by
    refine allPredsSkipped_modify_iff fun current hcurrent ↦ ?_
    rw [hrow current hcurrent]
    simp
  refine ⟨⟨fun nodeId hskip ↦ ?_, fun nodeId h ↦ .inl ((hpreds nodeId).mp h)⟩, hpreds⟩
  refine canSkip_modify (fun current hcurrent _ ↦ ?_) hskip
  rw [hrow current hcurrent]
  decide

theorem cascaded_of_promotions (hrun : ReflTransGen (Promotes g) t t') :
    Cascaded g t t' ∧ ∀ nodeId, allPredsSkipped g t' nodeId ↔ allPredsSkipped g t nodeId := by
  refine invariant (P := fun s ↦ Cascaded g t s ∧
    ∀ nodeId, allPredsSkipped g s nodeId ↔ allPredsSkipped g t nodeId) ?_ hrun
    ⟨.refl t, fun _ ↦ Iff.rfl⟩
  rintro s s' ⟨hcascaded, hpreds⟩ hstep
  obtain ⟨hcascaded', hpreds'⟩ := cascaded_of_promotes hstep
  exact ⟨hcascaded.trans hcascaded', fun nodeId ↦ (hpreds' nodeId).trans (hpreds nodeId)⟩

/-- The loop over the out-edges of a skipped node promotes, and pushes every target whose
predecessors are all skipped. -/
theorem foldl_cascadeEdge (edges : List GraphEdge) (acc : NodeTable × List String) :
    ReflTransGen (Promotes g) acc.1 (edges.foldl (cascadeEdge g) acc).1 ∧
      (∀ nodeId ∈ acc.2, nodeId ∈ (edges.foldl (cascadeEdge g) acc).2) ∧
      ∀ edge ∈ edges, allPredsSkipped g acc.1 edge.target →
        edge.target ∈ (edges.foldl (cascadeEdge g) acc).2 := by
  induction edges generalizing acc with
  | nil => exact ⟨.refl, fun _ h ↦ h, by simp⟩
  | cons first rest ih =>
    rw [foldl_cons]
    obtain ⟨hrun, hkept, hpushed⟩ := ih (cascadeEdge g acc first)
    have hstep : ReflTransGen (Promotes g) acc.1 (cascadeEdge g acc first).1 ∧
        (∀ nodeId ∈ acc.2, nodeId ∈ (cascadeEdge g acc first).2) ∧
        (allPredsSkipped g acc.1 first.target → first.target ∈ (cascadeEdge g acc first).2) := by
      unfold cascadeEdge
      split_ifs with hskipped
      · exact ⟨.refl, fun _ h ↦ mem_append_left _ h,
          fun _ ↦ mem_append_right _ (mem_singleton.mpr rfl)⟩
      · split
        · exact ⟨.refl, fun _ h ↦ h, fun h ↦ absurd h hskipped⟩
        · rename_i id hid
          exact ⟨.single (promotes_of_promotable hid), fun _ h ↦ h, fun h ↦ absurd h hskipped⟩
    obtain ⟨hfirst, hfirstKept, hfirstPushed⟩ := hstep
    refine ⟨hfirst.trans hrun, fun nodeId h ↦ hkept nodeId (hfirstKept nodeId h), ?_⟩
    intro edge hedge hskipped
    rcases mem_cons.mp hedge with rfl | hrest
    · exact hkept _ (hfirstPushed hskipped)
    · exact hpushed edge hrest (((cascaded_of_promotions hfirst).2 _).mpr hskipped)

/-- The state of the queue loop: a node completed by the loop is in the queue or cannot be skipped
any more, and so is the node the loop began with. -/
structure CascadeReach (g : WorkflowGraph) (t : NodeTable) (start : String) (queue : List String)
    (nodes : NodeTable) : Prop where
  canSkip : ∀ nodeId, nodes.canSkip nodeId → t.canSkip nodeId
  joins : ∀ nodeId, allPredsSkipped g nodes nodeId →
    allPredsSkipped g t nodeId ∨ nodeId ∈ queue ∨ ¬ nodes.canSkip nodeId
  start : start ∈ queue ∨ ¬ nodes.canSkip start

theorem cascadeBody_reach {start currentId : String} {queue : List String} {acc : Unlocked}
    (h : CascadeReach g t start (currentId :: queue) acc.nodes) :
    CascadeReach g t start (queue ++ (cascadeBody g now currentId acc).2)
      (cascadeBody g now currentId acc).1.nodes := by
  -- a popped node that is not skipped cannot be skipped
  have hpop : ¬ acc.nodes.canSkip currentId → CascadeReach g t start queue acc.nodes := by
    intro hcurrent
    refine ⟨h.canSkip, fun nodeId hskipped ↦ ?_, ?_⟩
    · rcases h.joins nodeId hskipped with hbefore | hqueue | hdone
      · exact .inl hbefore
      · rcases mem_cons.mp hqueue with rfl | hrest
        · exact .inr (.inr hcurrent)
        · exact .inr (.inl hrest)
      · exact .inr (.inr hdone)
    · rcases h.start with hqueue | hdone
      · rcases mem_cons.mp hqueue with rfl | hrest
        · exact .inr hcurrent
        · exact .inl hrest
      · exact .inr hdone
  unfold cascadeBody
  split
  · rename_i hget
    simpa using hpop (by simp [NodeTable.canSkip, hget])
  · rename_i current hget
    split_ifs with hskippable
    · obtain ⟨hfind, hid⟩ := get_eq_some hget
      obtain ⟨hrun, -, hpushed⟩ := foldl_cascadeEdge (g := g) (g.successors currentId)
        (acc.nodes.modify current.1 (skip now), [])
      obtain ⟨hcascaded, hpreds⟩ := cascaded_of_promotions hrun
      have hskip : ∀ nodeId,
          NodeTable.canSkip (acc.nodes.modify current.1 (skip now)) nodeId →
          acc.nodes.canSkip nodeId ∧ nodeId ≠ currentId := by
        intro nodeId hnode
        refine ⟨canSkip_modify (fun row _ hrow ↦ absurd hrow (by simp [skip,
          NodeStatus.isSkippable])) hnode, ?_⟩
        rintro rfl
        rw [NodeTable.canSkip, get_modify, hget] at hnode
        simp [skip, NodeStatus.isSkippable] at hnode
      refine ⟨fun nodeId hnode ↦ h.canSkip nodeId (hskip nodeId (hcascaded.canSkip nodeId hnode)).1,
        fun nodeId hskipped ↦ ?_, ?_⟩
      · rcases allPredsSkipped_of_skip ((hpreds nodeId).mp hskipped) with hbefore | ⟨edge, hedge, rfl⟩
        · rcases h.joins nodeId hbefore with hfirst | hqueue | hdone
          · exact .inl hfirst
          · rcases mem_cons.mp hqueue with rfl | hrest
            · exact .inr (.inr fun hnode ↦ (hskip _ (hcascaded.canSkip _ hnode)).2 rfl)
            · exact .inr (.inl (mem_append_left _ hrest))
          · exact .inr (.inr fun hnode ↦ hdone (hskip _ (hcascaded.canSkip _ hnode)).1)
        · rw [hid] at hedge
          exact .inr (.inl (mem_append_right _
            (hpushed edge hedge ((hpreds _).mp hskipped))))
      · rcases h.start with hqueue | hdone
        · rcases mem_cons.mp hqueue with rfl | hrest
          · exact .inr fun hnode ↦ (hskip _ (hcascaded.canSkip _ hnode)).2 rfl
          · exact .inl (mem_append_left _ hrest)
        · exact .inr fun hnode ↦ hdone (hskip _ (hcascaded.canSkip _ hnode)).1
    · have hcurrent : ¬ acc.nodes.canSkip currentId := by
        rw [NodeTable.canSkip, hget]
        simpa using hskippable
      simpa using hpop hcurrent

/-- The cascade reaches every join it completes, and skips the node it starts with. -/
theorem cascadeSkip_cascaded (now : Time) (t : NodeTable) (nodeId : String) :
    Cascaded g t (cascadeSkip g now t nodeId).nodes ∧
      ¬ (cascadeSkip g now t nodeId).nodes.canSkip nodeId := by
  have hreach : CascadeReach g t nodeId (cascadeLoop g now t nodeId).2
      (cascadeLoop g now t nodeId).1.nodes := by
    refine worklist_invariant (P := fun queue (acc : Unlocked) ↦
      CascadeReach g t nodeId queue acc.nodes) ?_ _ _ _ ?_
    · intro currentId queue acc h
      exact cascadeBody_reach h
    · exact ⟨fun _ h ↦ h, fun _ h ↦ .inl h, .inl (mem_singleton.mpr rfl)⟩
  rw [cascadeSkip_drained] at hreach
  refine ⟨⟨hreach.canSkip, fun other hskipped ↦ ?_⟩, ?_⟩
  · rcases hreach.joins other hskipped with hbefore | hqueue | hdone
    · exact .inl hbefore
    · simp at hqueue
    · exact .inr hdone
  · exact hreach.start.resolve_left not_mem_nil

/-- The body of the loop over the out-edges: the cascade, and that the target of an edge to be
skipped cannot be skipped any more. -/
theorem unlockEdge_cascaded (now : Time) (branch : String) (acc : Unlocked) (edge : GraphEdge) :
    Cascaded g acc.nodes (unlockEdge g now branch acc edge).nodes ∧
      (∀ label, edge.condition = some label → label ≠ branch →
        ¬ (unlockEdge g now branch acc edge).nodes.canSkip edge.target) := by
  unfold unlockEdge
  split_ifs with hnone hmatch
  · refine ⟨.refl _, fun _ _ _ ↦ ?_⟩
    simp [NodeTable.canSkip, isNone_iff_eq_none.mp hnone]
  · refine ⟨(cascaded_of_promotions (promote_steps (fun _ _ h ↦ h) acc edge.target)).1, ?_⟩
    intro label hlabel hne
    rcases hmatch with hfree | hsame
    · exact absurd (hlabel.symm.trans hfree) (by simp)
    · exact absurd (mem_unique hlabel hsame) hne
  · obtain ⟨hcascaded, htarget⟩ := cascadeSkip_cascaded (g := g) now acc.nodes edge.target
    have hjoins := (cascaded_of_promotions (promoteTargets_steps (g := g) (fun _ _ h ↦ h)
      (cascadeSkip g now acc.nodes edge.target).nodes (g.successors edge.target))).1
    exact ⟨hcascaded.trans hjoins, fun _ _ _ hskip ↦ htarget (hjoins.canSkip _ hskip)⟩

/-- `unlock_after_node_success` reaches every join it completes and the target of every edge it has
to skip. -/
theorem unlockAfterNodeSuccess_cascaded (now : Time) (t : NodeTable) (sourceId : String)
    (output : JsonObject) :
    Cascaded g t (unlockAfterNodeSuccess g now t sourceId output).nodes ∧
      ∀ edge, SkippedEdge g sourceId output edge →
        ¬ (unlockAfterNodeSuccess g now t sourceId output).nodes.canSkip edge.target := by
  have hpromote := (cascaded_of_promotions
    (promoteTargets_steps (g := g) (fun _ _ h ↦ h) t (g.successors sourceId))).1
  have hfold : ∀ (branch : String) (edges : List GraphEdge) (acc : Unlocked),
      Cascaded g acc.nodes (edges.foldl (unlockEdge g now branch) acc).nodes ∧
        ∀ edge ∈ edges, ∀ label, edge.condition = some label → label ≠ branch →
          ¬ (edges.foldl (unlockEdge g now branch) acc).nodes.canSkip edge.target := by
    intro branch edges
    induction edges with
    | nil => exact fun acc ↦ ⟨.refl _, by simp⟩
    | cons first rest ih =>
      intro acc
      obtain ⟨hfirst, htarget⟩ := unlockEdge_cascaded (g := g) now branch acc first
      obtain ⟨hrest, htargets⟩ := ih (unlockEdge g now branch acc first)
      refine ⟨hfirst.trans hrest, fun edge hedge label hlabel hne ↦ ?_⟩
      rcases mem_cons.mp hedge with rfl | hmem
      · exact fun hskip ↦ htarget label hlabel hne (hrest.canSkip _ hskip)
      · exact htargets edge hmem label hlabel hne
  unfold unlockAfterNodeSuccess
  cases hbranch : emittedBranch output with
  | none =>
    refine ⟨hpromote, ?_⟩
    rintro edge ⟨-, -, branch, -, hemitted, -⟩
    exact absurd (hbranch.symm.trans hemitted) (by simp)
  | some branch =>
    dsimp only
    split_ifs with hconditional
    · obtain ⟨hcascaded, htargets⟩ := hfold branch (g.successors sourceId) { nodes := t }
      refine ⟨hcascaded, ?_⟩
      rintro edge ⟨hmem, -, branch', label, hemitted, hlabel, hne⟩
      obtain rfl := mem_unique hbranch hemitted
      exact htargets edge hmem label hlabel hne
    · refine ⟨hpromote, ?_⟩
      rintro edge ⟨-, hlabels, -⟩
      exact absurd hlabels hconditional

/-! ### The nodes a call skips -/

/-- The nodes a call skips, from the rows before it: the targets of the edges it has to skip, and
the joins all of whose predecessor rows are skipped before the call or stand for such a node. -/
inductive Doomed (g : WorkflowGraph) (skips : GraphEdge → Prop) (t : NodeTable) : String → Prop
  | target (edge : GraphEdge) (hedge : skips edge) (hskip : t.canSkip edge.target) :
      Doomed g skips t edge.target
  | join (nodeId : String) (hskip : t.canSkip nodeId) (hnew : ¬ allPredsSkipped g t nodeId)
      (hpreds : g.predecessors nodeId ≠ [])
      (hrows : ∀ edge ∈ g.predecessors nodeId, t.rowsOf edge.source ≠ [])
      (hget : ∀ edge ∈ g.predecessors nodeId, ∀ entry ∈ t.rowsOf edge.source,
        entry.2.status ≠ .skipped → t.get edge.source = some entry)
      (hdoomed : ∀ edge ∈ g.predecessors nodeId, ∀ entry ∈ t.rowsOf edge.source,
        entry.2.status ≠ .skipped → Doomed g skips t edge.source) :
      Doomed g skips t nodeId

section Doomed

variable {skips : GraphEdge → Prop} {s : NodeTable} {row : NodeRun}

theorem Doomed.canSkip (h : Doomed g skips t nodeId) : t.canSkip nodeId := by
  cases h with
  | target _ _ hskip | join _ hskip _ _ _ _ _ => exact hskip

/-- What a call of `unlock_after_node_success` may do to the rows: none is created or deleted, the
one that represents a node stays so, and only rows no worker has begun are promoted or skipped. -/
structure Unlocks (t t' : NodeTable) : Prop where
  find : ∀ id row', t'.find id = some row' → ∃ row, t.find id = some row ∧
    (row' = row ∨ row.status.isSkippable ∧ (row'.status = .ready ∨ row'.status = .skipped))
  kept : ∀ id, (t'.find id).isSome = (t.find id).isSome
  getId : ∀ nodeId, (t'.get nodeId).map Prod.fst = (t.get nodeId).map Prod.fst

theorem Unlocks.refl (t : NodeTable) : Unlocks t t where
  find := fun _ row hrow ↦ ⟨row, hrow, .inl rfl⟩
  kept := fun _ ↦ rfl
  getId := fun _ ↦ rfl

/-- One write that promotes or skips a row no worker has begun. -/
theorem Unlocks.modify (h : Unlocks t s)
    (hfind : s.find id = some row) (hskippable : row.status.isSkippable)
    (hf : (f row).status = .ready ∨ (f row).status = .skipped) : Unlocks t (s.modify id f) where
  find := by
    intro other row' hrow'
    rw [find_modify] at hrow'
    split_ifs at hrow' with hid
    · subst hid
      rw [hfind] at hrow'
      cases hrow'
      obtain ⟨first, hfirst, hcase⟩ := h.find other row hfind
      refine ⟨first, hfirst, .inr ⟨?_, hf⟩⟩
      rcases hcase with rfl | ⟨hbefore, -⟩
      · exact hskippable
      · exact hbefore
    · exact h.find other row' hrow'
  kept := by
    intro other
    rw [find_modify, ← h.kept other]
    split_ifs <;> simp
  getId := by
    intro nodeId
    rw [get_modify, Option.map_map]
    exact h.getId nodeId

theorem unlocks_of_unlockStep {t₀ s' : NodeTable} (h : Unlocks t s)
    (hstep : UnlockStep g skips t₀ s s') : Unlocks t s' := by
  cases hstep with
  | promote hpromotes =>
    obtain ⟨_, id, row, hget, hpending, -⟩ := hpromotes
    refine h.modify (get_eq_some hget).1 ?_ (.inl rfl)
    rw [hpending]
    decide
  | skipTarget now edge id row _ hget hskippable =>
    exact h.modify (get_eq_some hget).1 hskippable (.inr rfl)
  | skipJoin now nodeId id row hget hskippable _ _ =>
    exact h.modify (get_eq_some hget).1 hskippable (.inr rfl)

theorem Unlocks.find_isSome (h : Unlocks t s) (hfind : t.find id = some row) : ∃ row', s.find id = some row' := by
  rw [← isSome_iff_exists, h.kept, hfind]
  rfl

theorem Unlocks.canSkip_of_get (h : Unlocks t s)
    (hget : s.get nodeId = some (id, row)) (hskippable : row.status.isSkippable) :
    ∃ first, t.get nodeId = some (id, first) ∧ first.status.isSkippable := by
  obtain ⟨first, hfirst, hcase⟩ := h.find id row (get_eq_some hget).1
  have hid := h.getId nodeId
  rw [hget] at hid
  obtain ⟨⟨id', first'⟩, hget', rfl⟩ := map_eq_some_iff.mp hid.symm
  have hsame := (get_eq_some hget').1
  obtain rfl : first = first' := mem_unique hfirst hsame
  refine ⟨first, hget', ?_⟩
  rcases hcase with rfl | ⟨hbefore, -⟩
  · exact hskippable
  · exact hbefore

/-- A row the call skips represents a doomed node. -/
def SkipsDoomed (g : WorkflowGraph) (skips : GraphEdge → Prop) (t t' : NodeTable) : Prop :=
  ∀ id row row', t.find id = some row → t'.find id = some row' → row.status ≠ .skipped →
    row'.status = .skipped → t.get id.nodeId = some (id, row) ∧ Doomed g skips t id.nodeId

theorem SkipsDoomed.refl (t : NodeTable) : SkipsDoomed g skips t t := by
  intro id row row' hrow hrow' hbefore hafter
  rw [hrow] at hrow'
  exact absurd (Option.some.inj hrow' ▸ hafter) hbefore

/-- A skip of the row that represents a doomed node. -/
theorem SkipsDoomed.skip (h : SkipsDoomed g skips t s) (hunlocks : Unlocks t s)
    (hget : s.get nodeId = some (id, row))
    (hskippable : row.status.isSkippable) (hdoomed : t.canSkip nodeId → Doomed g skips t nodeId) :
    SkipsDoomed g skips t (s.modify id (skip now)) := by
  intro other first row' hfirst hrow' hbefore hafter
  rw [find_modify] at hrow'
  split_ifs at hrow' with hid
  · subst hid
    obtain ⟨first', hget', hskip⟩ := hunlocks.canSkip_of_get hget hskippable
    obtain ⟨hfirst', hnode⟩ := get_eq_some hget'
    obtain rfl : first = first' := mem_unique hfirst hfirst'
    have hnode : other.nodeId = nodeId := hnode
    rw [hnode]
    exact ⟨hget', hdoomed (NodeTable.canSkip_iff.mpr ⟨other, first, hget', hskip⟩)⟩
  · exact h other first row' hfirst hrow' hbefore hafter

/-- The rows of the predecessors of a join that is skipped were skipped before the call or represent
doomed nodes. -/
theorem SkipsDoomed.join (h : SkipsDoomed g skips t s) (hunlocks : Unlocks t s)
    (hpreds : allPredsSkipped g s nodeId) (hnew : ¬ allPredsSkipped g t nodeId)
    (hskip : t.canSkip nodeId) : Doomed g skips t nodeId := by
  rw [allPredsSkipped_iff] at hpreds
  have hentry : ∀ edge ∈ g.predecessors nodeId, ∀ entry ∈ t.rowsOf edge.source,
      entry.2.status ≠ .skipped →
      t.get edge.source = some entry ∧ Doomed g skips t edge.source := by
    intro edge hedge entry hmem hbefore
    obtain ⟨hfind, hnode⟩ := mem_rowsOf.mp hmem
    obtain ⟨row', hrow'⟩ := hunlocks.find_isSome hfind
    have hafter := (hpreds.2 edge hedge).2 (entry.1, row') (mem_rowsOf.mpr ⟨hrow', hnode⟩)
    have hdoomed := h entry.1 entry.2 row' hfind hrow' hbefore hafter
    rwa [hnode] at hdoomed
  refine .join nodeId hskip hnew hpreds.1 (fun edge hedge hempty ↦ ?_)
    (fun edge hedge entry hmem hbefore ↦ (hentry edge hedge entry hmem hbefore).1)
    (fun edge hedge entry hmem hbefore ↦ (hentry edge hedge entry hmem hbefore).2)
  obtain ⟨entry, hmem⟩ := exists_mem_of_ne_nil _ (hpreds.2 edge hedge).1
  obtain ⟨hfind, hnode⟩ := mem_rowsOf.mp hmem
  obtain ⟨row, hrow, -⟩ := hunlocks.find _ _ hfind
  exact ne_nil_of_mem (mem_rowsOf.mpr ⟨hrow, hnode⟩ : (entry.1, row) ∈ _) hempty

/-- A call skips only the rows of doomed nodes. -/
theorem skipsDoomed_of_unlockSteps (hrun : ReflTransGen (UnlockStep g skips t) t t') :
    Unlocks t t' ∧ SkipsDoomed g skips t t' := by
  refine invariant (P := fun s ↦ Unlocks t s ∧ SkipsDoomed g skips t s) ?_ hrun
    ⟨.refl t, .refl t⟩
  rintro s s' ⟨hunlocks, hdoomed⟩ hstep
  refine ⟨unlocks_of_unlockStep hunlocks hstep, ?_⟩
  cases hstep with
  | promote hpromotes =>
    intro id row row' hrow hrow' hbefore hafter
    obtain ⟨_, other, current, -, -, -⟩ := hpromotes
    rw [NodeTable.find_setStatus] at hrow'
    split_ifs at hrow' with hid
    · obtain ⟨old, -, rfl⟩ := map_eq_some_iff.mp hrow'
      simp at hafter
    · exact hdoomed id row row' hrow hrow' hbefore hafter
  | skipTarget now edge id row hedge hget hskippable =>
    exact hdoomed.skip hunlocks hget hskippable (.target edge hedge)
  | skipJoin now nodeId id row hget hskippable hpreds hnew =>
    exact hdoomed.skip hunlocks hget hskippable (hdoomed.join hunlocks hpreds hnew)

/-- A row that could be skipped and cannot be any more has been skipped. -/
theorem Unlocks.skipped (h : Unlocks t t')
    (hget : t.get nodeId = some (id, row)) (hskippable : row.status.isSkippable)
    (hskip : ¬ t'.canSkip nodeId) : ∃ row', t'.find id = some row' ∧ row'.status = .skipped := by
  have hid := h.getId nodeId
  rw [hget] at hid
  obtain ⟨⟨id', row'⟩, hget', hsame⟩ := map_eq_some_iff.mp hid
  obtain rfl : id' = id := hsame
  obtain ⟨hrow', -⟩ := get_eq_some hget'
  have hdone : ¬ row'.status.isSkippable := fun hrow ↦
    hskip (NodeTable.canSkip_iff.mpr ⟨id', row', hget', hrow⟩)
  obtain ⟨first, hfirst, hcase⟩ := h.find id' row' hrow'
  rw [(get_eq_some hget).1] at hfirst
  cases hfirst
  refine ⟨row', hrow', ?_⟩
  rcases hcase with rfl | ⟨-, hready | hskipped⟩
  · exact absurd hskippable hdone
  · rw [hready] at hdone
    exact absurd (by decide) hdone
  · exact hskipped

/-- A row no call may skip is the same after the call. -/
theorem Unlocks.find_of_not_skippable (h : Unlocks t t')
    (hfind : t.find id = some row) (hskippable : ¬ row.status.isSkippable) :
    t'.find id = some row := by
  obtain ⟨row', hrow'⟩ := h.find_isSome hfind
  obtain ⟨first, hfirst, hcase⟩ := h.find id row' hrow'
  obtain rfl := mem_unique hfind hfirst
  rcases hcase with rfl | ⟨hbefore, -⟩
  · exact hrow'
  · exact absurd hbefore hskippable

/-- A call skips every doomed node. Assumes: it reaches every join it completes, and the targets it
has to skip. -/
theorem Doomed.not_canSkip (hunlocks : Unlocks t t') (hcascaded : Cascaded g t t')
    (htargets : ∀ edge, skips edge → ¬ t'.canSkip edge.target)
    (h : Doomed g skips t nodeId) : ¬ t'.canSkip nodeId := by
  induction h with
  | target edge hedge _ => exact htargets edge hedge
  | join nodeId hskip hnew hpreds hrows hget hdoomed ih =>
    refine (hcascaded.joins nodeId ?_).resolve_left hnew
    rw [allPredsSkipped_iff]
    refine ⟨hpreds, fun edge hedge ↦ ⟨?_, ?_⟩⟩
    · obtain ⟨entry, hmem⟩ := exists_mem_of_ne_nil _ (hrows edge hedge)
      obtain ⟨hfind, hnode⟩ := mem_rowsOf.mp hmem
      obtain ⟨row', hrow'⟩ := hunlocks.find_isSome hfind
      exact ne_nil_of_mem (mem_rowsOf.mpr ⟨hrow', hnode⟩ : (entry.1, row') ∈ _)
    · rintro ⟨id, row'⟩ hmem
      obtain ⟨hrow', hnode⟩ := mem_rowsOf.mp hmem
      obtain ⟨row, hrow, -⟩ := hunlocks.find id row' hrow'
      have hentry : (id, row) ∈ t.rowsOf edge.source := mem_rowsOf.mpr ⟨hrow, hnode⟩
      by_cases hbefore : row.status = .skipped
      · have hsame := hunlocks.find_of_not_skippable hrow (by rw [hbefore]; decide)
        obtain rfl := mem_unique hrow' hsame
        exact hbefore
      · have hrepresents := hget edge hedge _ hentry hbefore
        obtain ⟨id', first, hfirst, hskippable⟩ :=
          NodeTable.canSkip_iff.mp (hdoomed edge hedge _ hentry hbefore).canSkip
        obtain ⟨rfl, rfl⟩ := Prod.mk.inj (mem_unique hrepresents hfirst)
        obtain ⟨row'', hrow'', hskipped⟩ :=
          hunlocks.skipped hrepresents hskippable (ih edge hedge _ hentry hbefore)
        obtain rfl := mem_unique hrow' hrow''
        exact hskipped

end Doomed

/-! ### The property and its condition -/

/-- The row keeps its out-edge dead: it is skipped, or succeeded and named another branch. -/
def NodeRun.DeadAlong (row : NodeRun) (edge : GraphEdge) : Prop :=
  row.status = .skipped ∨ row.status = .succeeded ∧ ∃ branch label,
    emittedBranch row.outputJson = some branch ∧ edge.condition = some label ∧ label ≠ branch

/-- The source of the edge has rows, and the edge is dead along each of them. -/
def DeadEdge (t : NodeTable) (edge : GraphEdge) : Prop :=
  t.rowsOf edge.source ≠ [] ∧ ∀ entry ∈ t.rowsOf edge.source, entry.2.DeadAlong edge

/-- Every row the call skips has only dead incoming edges. -/
def SkipsSound (g : WorkflowGraph) (t t' : NodeTable) : Prop :=
  ∀ id row row', t.find id = some row → t'.find id = some row' → row.status ≠ .skipped →
    row'.status = .skipped → ∀ edge ∈ g.predecessors id.nodeId, DeadEdge t' edge

/-- Before the call, the edge is dead along every row of its source but those that represent nodes
the call skips. -/
def DyingEdge (g : WorkflowGraph) (skips : GraphEdge → Prop) (t : NodeTable) (edge : GraphEdge) :
    Prop :=
  t.rowsOf edge.source ≠ [] ∧ ∀ entry ∈ t.rowsOf edge.source, entry.2.DeadAlong edge ∨
    (t.get edge.source = some entry ∧ Doomed g skips t edge.source)

/-- Every target the call has to skip outright has only dying incoming edges. -/
def TargetsDying (g : WorkflowGraph) (skips : GraphEdge → Prop) (t : NodeTable) : Prop :=
  ∀ edge, skips edge → t.canSkip edge.target →
    ∀ incoming ∈ g.predecessors edge.target, DyingEdge g skips t incoming

section Condition

variable {skips : GraphEdge → Prop}

theorem NodeRun.DeadAlong.not_isSkippable {row : NodeRun} {edge : GraphEdge}
    (h : row.DeadAlong edge) : ¬ row.status.isSkippable := by
  rcases h with hskipped | ⟨hsucceeded, -⟩
  · rw [hskipped]
    decide
  · rw [hsucceeded]
    decide

/-- The edges that are dead after the call are those that were dying before it.
Assumes: the call skips exactly the doomed nodes. -/
theorem deadEdge_iff (hunlocks : Unlocks t t') (hsound : SkipsDoomed g skips t t')
    (hcomplete : ∀ nodeId, Doomed g skips t nodeId → ¬ t'.canSkip nodeId) (edge : GraphEdge) :
    DeadEdge t' edge ↔ DyingEdge g skips t edge := by
  have hkept : ∀ {id row}, t.find id = some row → id.nodeId = edge.source →
      ∃ row', t'.find id = some row' ∧ (id, row') ∈ t'.rowsOf edge.source := by
    intro id row hfind hnode
    obtain ⟨row', hrow'⟩ := hunlocks.find_isSome hfind
    exact ⟨row', hrow', mem_rowsOf.mpr ⟨hrow', hnode⟩⟩
  constructor
  · rintro ⟨hrows, hdead⟩
    refine ⟨?_, ?_⟩
    · obtain ⟨entry, hmem⟩ := exists_mem_of_ne_nil _ hrows
      obtain ⟨hfind, hnode⟩ := mem_rowsOf.mp hmem
      obtain ⟨row, hrow, -⟩ := hunlocks.find _ _ hfind
      exact ne_nil_of_mem (mem_rowsOf.mpr ⟨hrow, hnode⟩ : (entry.1, row) ∈ _)
    · rintro ⟨id, row⟩ hmem
      obtain ⟨hrow, hnode⟩ := mem_rowsOf.mp hmem
      have hnode : id.nodeId = edge.source := hnode
      obtain ⟨row', hrow', hmem'⟩ := hkept hrow hnode
      have hafter := hdead _ hmem'
      by_cases hsame : row' = row
      · subst hsame
        exact .inl hafter
      · -- the call has changed the row, and not to `READY`
        right
        obtain ⟨first, hfirst, hcase⟩ := hunlocks.find id row' hrow'
        obtain rfl := mem_unique hrow hfirst
        obtain ⟨hskippable, hstatus⟩ := hcase.resolve_left hsame
        have hskipped : row'.status = .skipped := by
          refine hstatus.resolve_left fun hready ↦ hafter.not_isSkippable ?_
          rw [hready]
          decide
        have hbefore : row.status ≠ .skipped := by
          intro h
          rw [h] at hskippable
          exact absurd hskippable (by decide)
        rw [← hnode]
        exact hsound id row row' hrow hrow' hbefore hskipped
  · rintro ⟨hrows, hdying⟩
    refine ⟨?_, ?_⟩
    · obtain ⟨entry, hmem⟩ := exists_mem_of_ne_nil _ hrows
      obtain ⟨hfind, hnode⟩ := mem_rowsOf.mp hmem
      obtain ⟨_, -, hmem'⟩ := hkept hfind hnode
      exact ne_nil_of_mem hmem'
    · rintro ⟨id, row'⟩ hmem'
      obtain ⟨hrow', hnode⟩ := mem_rowsOf.mp hmem'
      obtain ⟨row, hrow, -⟩ := hunlocks.find id row' hrow'
      rcases hdying (id, row) (mem_rowsOf.mpr ⟨hrow, hnode⟩) with hdead | ⟨hget, hdoomed⟩
      · have hsame := hunlocks.find_of_not_skippable hrow hdead.not_isSkippable
        obtain rfl := mem_unique hrow' hsame
        exact hdead
      · obtain ⟨id', first, hfirst, hskippable⟩ := NodeTable.canSkip_iff.mp hdoomed.canSkip
        obtain ⟨rfl, rfl⟩ := Prod.mk.inj (mem_unique hget hfirst)
        obtain ⟨row'', hrow'', hskipped⟩ :=
          hunlocks.skipped hget hskippable (hcomplete _ hdoomed)
        obtain rfl := mem_unique hrow' hrow''
        exact .inl hskipped

theorem DyingEdge.of_join {nodeId : String} (hrows : ∀ edge ∈ g.predecessors nodeId,
      t.rowsOf edge.source ≠ [])
    (hget : ∀ edge ∈ g.predecessors nodeId, ∀ entry ∈ t.rowsOf edge.source,
      entry.2.status ≠ .skipped → t.get edge.source = some entry)
    (hdoomed : ∀ edge ∈ g.predecessors nodeId, ∀ entry ∈ t.rowsOf edge.source,
      entry.2.status ≠ .skipped → Doomed g skips t edge.source)
    {edge : GraphEdge} (hedge : edge ∈ g.predecessors nodeId) : DyingEdge g skips t edge := by
  refine ⟨hrows edge hedge, fun entry hmem ↦ ?_⟩
  by_cases hskipped : entry.2.status = .skipped
  · exact .inl (.inl hskipped)
  · exact .inr ⟨hget edge hedge entry hmem hskipped, hdoomed edge hedge entry hmem hskipped⟩

end Condition

/-- A call of `unlock_after_node_success`, on any rows, skips only rows whose incoming edges are all
dead exactly when, before the call, the incoming edges of every target it has to skip outright are
dying. -/
theorem skipsSound_iff (g : WorkflowGraph) (now : Time) (t : NodeTable) (sourceId : String)
    (output : JsonObject) :
    SkipsSound g t (unlockAfterNodeSuccess g now t sourceId output).nodes ↔
      TargetsDying g (SkippedEdge g sourceId output) t := by
  obtain ⟨hunlocks, hsound⟩ :=
    skipsDoomed_of_unlockSteps (unlockAfterNodeSuccess_steps (g := g) now t sourceId output)
  obtain ⟨hcascaded, htargets⟩ := unlockAfterNodeSuccess_cascaded (g := g) now t sourceId output
  have hcomplete := fun nodeId (h : Doomed g (SkippedEdge g sourceId output) t nodeId) ↦
    h.not_canSkip hunlocks hcascaded htargets
  have hdead := deadEdge_iff hunlocks hsound hcomplete
  constructor
  · intro hskips edge hedge hskip incoming hincoming
    obtain ⟨id, row, hget, hskippable⟩ := NodeTable.canSkip_iff.mp hskip
    obtain ⟨row', hrow', hskipped⟩ := hunlocks.skipped hget hskippable (htargets edge hedge)
    obtain ⟨hrow, hnode⟩ := get_eq_some hget
    have hbefore : row.status ≠ .skipped := by
      intro h
      rw [h] at hskippable
      exact absurd hskippable (by decide)
    rw [← hdead]
    refine hskips id row row' hrow hrow' hbefore hskipped incoming ?_
    rwa [show id.nodeId = edge.target from hnode]
  · intro hdying id row row' hrow hrow' hbefore hskipped incoming hincoming
    rw [hdead]
    obtain ⟨-, hdoomed⟩ := hsound id row row' hrow hrow' hbefore hskipped
    generalize id.nodeId = nodeId at hdoomed hincoming
    cases hdoomed with
    | target edge hedge hskip => exact hdying edge hedge hskip incoming hincoming
    | join _ _ _ _ hrows hget hpreds => exact .of_join hrows hget hpreds hincoming

/-- A condition whose branch `no` leads to a join, and `yes` to the join by way of a delay. -/
def joinGraph : WorkflowGraph where
  nodes :=
    [{ id := "t", type := "manual_trigger" }, { id := "c", type := "condition" },
      { id := "a", type := "delay" }, { id := "j", type := "delay" }]
  edges :=
    [{ source := "t", target := "c" }, { source := "c", target := "a", condition := some "yes" },
      { source := "c", target := "j", condition := some "no" }, { source := "a", target := "j" }]

/-- The run in which the trigger has succeeded and the condition is claimed. -/
def joinRun : EngineState :=
  (catalogueEnv joinGraph repairedGlobals).play
    [(1, execSucceeds "t" "" 0 [("payload", .obj []), ("trigger_type", .str "manual_trigger")])]
    (startRun (catalogueEnv joinGraph repairedGlobals) 0 .inline [] [])

/-- The condition succeeds with the branch `yes`. -/
def conditionYes : Op :=
  execSucceeds "c" "" 2 [("branch", .str "yes"), ("matched", .bool true), ("evaluated_value", .null)]

/-- The join is skipped while the delay before it has just become `READY`. -/
theorem join_skipped_behind_ready_predecessor :
    graphValid catalogue (fun _ ↦ []) joinGraph {} ∧
      Reachable (catalogueEnv joinGraph repairedGlobals) anyOp joinRun ∧
      ∃ h, conditionYes.handOff (catalogueEnv joinGraph repairedGlobals) 2 joinRun = some h ∧
        h.spawnKeys (catalogueEnv joinGraph repairedGlobals) = none ∧
        ¬ SkipsSound joinGraph h.nodes (h.apply (catalogueEnv joinGraph repairedGlobals) 2) := by
  obtain ⟨h, hop, hkeys, hbefore, hafter, hlive⟩ : ∃ h,
      conditionYes.handOff (catalogueEnv joinGraph repairedGlobals) 2 joinRun = some h ∧
      h.spawnKeys (catalogueEnv joinGraph repairedGlobals) = none ∧
      (h.nodes.find ⟨"j", ""⟩).map status = some .pending ∧
      ((h.apply (catalogueEnv joinGraph repairedGlobals) 2).find ⟨"j", ""⟩).map
        status = some .skipped ∧
      ((h.apply (catalogueEnv joinGraph repairedGlobals) 2).find ⟨"a", ""⟩).map
        status = some .ready := ⟨_, rfl, rfl, rfl, rfl, rfl⟩
  refine ⟨by decide +kernel, reachable_play 0 .inline [] [] (permits_anyOp _ _ _), h, hop, hkeys,
    fun hsound ↦ ?_⟩
  obtain ⟨row, hrow, hpending⟩ := map_eq_some_iff.mp hbefore
  obtain ⟨row', hrow', hskipped⟩ := map_eq_some_iff.mp hafter
  obtain ⟨delay, hdelay, hready⟩ := map_eq_some_iff.mp hlive
  obtain ⟨-, hdead⟩ := hsound ⟨"j", ""⟩ row row' hrow hrow' (by rw [hpending]; decide) hskipped
    { source := "a", target := "j" } (by simp [predecessors, joinGraph])
  refine (hdead (⟨"a", ""⟩, delay) (mem_rowsOf.mpr ⟨hdelay, rfl⟩)).not_isSkippable ?_
  dsimp only
  rw [hready]
  decide

end ContentGenerator.Workflows

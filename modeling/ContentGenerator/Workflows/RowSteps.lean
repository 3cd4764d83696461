import ContentGenerator.Workflows.Execute

/-!
# The steps a row table can take

An abstract account of what happens to the rows of a run, which every operation refines. Four kinds
of change: a promotion (`Promotes`), a write to one row by whoever holds it (`NodeRun.Proceeds`), a
skip, and the spawning of iteration rows (`Spawns`). `QuietStep` is what happens outside the moment a
row finishes and is handed on, `UnlockStep` what `unlock_after_node_success` does, and `SpawnStep` what
the two fan-out functions do.

The loops of the source make runs of these relations (`unlockAfterNodeSuccess_steps` and its siblings).
Invariants of whole runs are proved against the relations and never unfold the loops.
-/

namespace ContentGenerator.Workflows

open Lib Relation List Option WorkflowGraph NodeTable
open KeyedTable (find_modify find_modify_of_ne)
open NodeRun (seeded skip supersede)

variable {g : WorkflowGraph} {node : GraphNode} {queue : List String} {start : String} {status : NodeStatus}

/-! ### Writes to one row -/

/-- The row is over: no step but an operator's reset changes its status. -/
def NodeStatus.isSettled (status : NodeStatus) : Bool :=
  status = .succeeded ∨ status = .skipped ∨ status = .cancelled

theorem NodeStatus.isSettled_of_isSuccess (h : status.isSuccess) :
    status.isSettled := by
  revert h
  cases status <;> decide

theorem NodeStatus.not_isSuccess_of_isSkippable (h : status.isSkippable) :
    ¬ status.isSuccess := by
  revert h
  cases status <;> decide

/-- A placeholder that iteration rows have replaced. -/
def NodeRun.isSuperseded (row : NodeRun) : Bool :=
  row.status = .skipped ∧ row.waitingReason = some "superseded_by_fan_out"

/-- What a worker, a claim, recovery, a decision, cancellation or the retry of a failed row may do
to a row: a settled row keeps its status and output, a pending row stays or is cancelled, and no row
goes back to pending. -/
structure NodeRun.Proceeds (row row' : NodeRun) : Prop where
  nodeType : row'.nodeType = row.nodeType
  settled : row.status.isSettled → row'.status = row.status ∧ row'.outputJson = row.outputJson ∧
    row'.waitingReason = row.waitingReason
  pending : row.status = .pending → row'.status = .pending ∨ row'.status = .cancelled
  begun : row.status ≠ .pending → row'.status ≠ .pending
  reason : row'.waitingReason = none ∨ row'.waitingReason = row.waitingReason ∨
    row'.status = .waiting

theorem NodeRun.Proceeds.refl (row : NodeRun) : row.Proceeds row where
  nodeType := rfl
  settled := fun _ ↦ ⟨rfl, rfl, rfl⟩
  pending := .inl
  begun := id
  reason := .inr (.inl rfl)

variable {row row' : NodeRun} {id : RowId}

/-- A write to a row that a worker holds, or that waits or has failed.
Assumes: the row is neither settled nor pending before, and is not pending after. -/
theorem NodeRun.Proceeds.of_active (htype : row'.nodeType = row.nodeType)
    (hsettled : ¬ row.status.isSettled) (hpending : row.status ≠ .pending)
    (hpending' : row'.status ≠ .pending)
    (hreason : row'.waitingReason = none ∨ row'.waitingReason = row.waitingReason ∨
      row'.status = .waiting) : row.Proceeds row' where
  nodeType := htype
  settled := fun h ↦ absurd h hsettled
  pending := fun h ↦ absurd h hpending
  begun := fun _ ↦ hpending'
  reason := hreason

structure NodeRun.Continues (row row' : NodeRun) : Prop extends NodeRun.Proceeds row row' where
  unfinished : row'.status.isSuccess → row.status.isSuccess

theorem NodeRun.Continues.refl (row : NodeRun) : row.Continues row := ⟨.refl row, id⟩

theorem NodeRun.Proceeds.continues (h : row.Proceeds row') (hstatus : ¬ row'.status.isSuccess) : row.Continues row' :=
  ⟨h, fun hsuccess ↦ absurd hsuccess hstatus⟩

/-! ### Lookups after a write -/

theorem NodeTable.find_put (t : NodeTable) (id : RowId) (row : NodeRun) (j : RowId) :
    (t.put id row).find j = if j = id then (t.find j).map fun _ ↦ row else t.find j :=
  find_modify _ _ _ _

theorem NodeTable.find_put_self (t : NodeTable) {old : NodeRun} (row : NodeRun)
    (h : t.find id = some old) : (t.put id row).find id = some row := by
  rw [NodeTable.find_put, if_pos rfl, h]
  rfl

theorem NodeTable.find_put_of_ne (t : NodeTable) {j : RowId} (row : NodeRun) (h : j ≠ id) :
    (t.put id row).find j = t.find j :=
  find_modify_of_ne _ _ h

theorem NodeTable.isSome_find_modify (t : NodeTable) (id : RowId) (f : NodeRun → NodeRun) (j : RowId) :
    ((t.modify id f).find j).isSome = (t.find j).isSome := by
  rw [find_modify]
  split_ifs
  · exact isSome_map
  · rfl

theorem NodeTable.isSome_find_put (t : NodeTable) (id : RowId) (row : NodeRun) (j : RowId) :
    ((t.put id row).find j).isSome = (t.find j).isSome :=
  NodeTable.isSome_find_modify t id _ j

theorem NodeTable.find_setStatus (t : NodeTable) (id : RowId) (status : NodeStatus) (j : RowId) :
    (t.setStatus id status).find j =
      if j = id then (t.find j).map fun row ↦ { row with status := status } else t.find j :=
  find_modify _ _ _ _

/-! ### The relations -/

/-- A pending row of a ready node becomes `READY`. -/
inductive Promotes (g : WorkflowGraph) (t : NodeTable) : NodeTable → Prop
  | intro (nodeId : String) (id : RowId) (row : NodeRun) (hget : t.get nodeId = some (id, row))
      (hpending : row.status = .pending) (hready : isReady g t nodeId) :
      Promotes g t (t.setStatus id .ready)

/-- What happens to the rows outside the moment a row finishes and is handed on. -/
inductive QuietStep (g : WorkflowGraph) (t : NodeTable) : NodeTable → Prop
  | promote {t' : NodeTable} (h : Promotes g t t') : QuietStep g t t'
  | write (f : RowId → NodeRun → NodeRun)
      (h : ∀ id row, t.find id = some row → row.Continues (f id row)) :
      QuietStep g t (t.mapValues f)

/-- What `unlock_after_node_success` does when it is called on `t₀`; `skips` are the edges whose
targets it skips outright, and a join is skipped when the call has skipped its last predecessor. -/
inductive UnlockStep (g : WorkflowGraph) (skips : GraphEdge → Prop) (t₀ t : NodeTable) :
    NodeTable → Prop
  | promote {t' : NodeTable} (h : Promotes g t t') : UnlockStep g skips t₀ t t'
  | skipTarget (now : Time) (edge : GraphEdge) (id : RowId) (row : NodeRun) (hedge : skips edge)
      (hget : t.get edge.target = some (id, row)) (hskippable : row.status.isSkippable) :
      UnlockStep g skips t₀ t (t.modify id (skip now))
  | skipJoin (now : Time) (nodeId : String) (id : RowId) (row : NodeRun)
      (hget : t.get nodeId = some (id, row)) (hskippable : row.status.isSkippable)
      (hpreds : allPredsSkipped g t nodeId) (hnew : ¬ allPredsSkipped g t₀ nodeId) :
      UnlockStep g skips t₀ t (t.modify id (skip now))

/-- The iteration rows of a node are handed out for some keys: an absent or pending row becomes
`READY`, any other row stays, and the placeholder may be superseded, which it is when a row is
created. -/
structure Spawns (node : GraphNode) (keys : List String) (t t' : NodeTable) : Prop where
  keys_ne : ∀ key ∈ keys, key ≠ ""
  other : ∀ id, id.nodeId ≠ node.id → t'.find id = t.find id
  unkeyed : ∀ key, key ≠ "" → key ∉ keys → t'.find ⟨node.id, key⟩ = t.find ⟨node.id, key⟩
  keyed : ∀ key ∈ keys, ∃ row', t'.find ⟨node.id, key⟩ = some row' ∧
    ((t.find ⟨node.id, key⟩ = some row' ∧ row'.status ≠ .pending) ∨
      (row'.status = .ready ∧ (t.find ⟨node.id, key⟩ = none ∨
        ∃ row, t.find ⟨node.id, key⟩ = some row ∧ row.status = .pending)))
  placeholder : t'.find ⟨node.id, ""⟩ = t.find ⟨node.id, ""⟩ ∨
    ∃ row row', t.find ⟨node.id, ""⟩ = some row ∧ row.status.isSkippable ∧
      t'.find ⟨node.id, ""⟩ = some row' ∧ row'.isSuperseded ∧ row'.nodeType = row.nodeType
  nodeType : ∀ key ∈ keys, ∀ row', t'.find ⟨node.id, key⟩ = some row' →
    row'.nodeType = node.type ∨ ∃ row, t.find ⟨node.id, key⟩ = some row ∧ row'.nodeType = row.nodeType
  closes : (∃ key ∈ keys, t.find ⟨node.id, key⟩ = none) →
    ∀ row', t'.find ⟨node.id, ""⟩ = some row' → ¬ row'.status.isSkippable
  origin : ∀ id row', t'.find id = some row' →
    (t.find id = none ∧ row'.status = .ready ∧ row'.resumeToken = none) ∨
      ∃ row, t.find id = some row ∧ row'.nodeType = row.nodeType ∧
        row'.resumeToken = row.resumeToken

/-- What the two fan-out functions do: promote, and hand out iteration rows of targets of the
finished node. `keys` lists the keys they hand out, and `fanOut` says which function it is: only
`materialize_fan_out_success` hands out rows of merges. -/
inductive SpawnStep (g : WorkflowGraph) (source : String) (fanOut : Bool) (keys : List String)
    (t : NodeTable) : NodeTable → Prop
  | promote {t' : NodeTable} (h : Promotes g t t') : SpawnStep g source fanOut keys t t'
  | spawn {t' : NodeTable} (edge : GraphEdge) (node : GraphNode) (hedge : edge ∈ g.successors source)
      (hnode : g.node? edge.target = some node) (hmerge : fanOut ∨ node.type ≠ "merge")
      (hspawns : Spawns node keys t t') : SpawnStep g source fanOut keys t t'

/-- A write to one row is a quiet step. -/
theorem quietStep_modify (t : NodeTable) (id : RowId) (f : NodeRun → NodeRun)
    (h : ∀ row, t.find id = some row → row.Continues (f row)) :
    QuietStep g t (t.modify id f) := by
  refine .write (fun key value ↦ if key = id then f value else value) fun key row hfind ↦ ?_
  split_ifs with hkey
  · exact h row (hkey ▸ hfind)
  · exact .refl row

theorem quietStep_put {t : NodeTable}
    (hfind : t.find id = some row) (h : row.Continues row') : QuietStep g t (t.put id row') := by
  refine quietStep_modify t id _ fun current hcurrent ↦ ?_
  rw [hfind] at hcurrent
  exact Option.some.inj hcurrent ▸ h

/-! ### Unlocking refines the relations -/

section Unlock

variable {t t' : NodeTable} {nodeId : String} {keys : List String} {edge : GraphEdge}

theorem promotes_of_promotable (h : promotable g t nodeId = some id) : Promotes g t (t.setStatus id .ready) := by
  obtain ⟨row, hget, hpending, hready⟩ := promotable_eq_some h
  exact .intro nodeId id row hget hpending hready

/-- A promotion attempt is a promotion or nothing. -/
theorem promote_steps {r : NodeTable → NodeTable → Prop}
    (hr : ∀ t t', Promotes g t t' → r t t') (acc : Unlocked) (nodeId : String) :
    ReflTransGen r acc.nodes (acc.promote g nodeId).nodes := by
  unfold Unlocked.promote
  split
  · exact .refl
  · rename_i id hid
    exact .single (hr _ _ (promotes_of_promotable hid))

theorem promoteTargets_steps {r : NodeTable → NodeTable → Prop}
    (hr : ∀ t t', Promotes g t t' → r t t') (t : NodeTable) (edges : List GraphEdge) :
    ReflTransGen r t (promoteTargets g t edges).nodes :=
  foldl_reflTransGen Unlocked.nodes { nodes := t }
    fun acc edge _ ↦ promote_steps hr acc edge.target

variable {skips : GraphEdge → Prop} {t₀ : NodeTable}

/-- A promotion changes only a row no worker has begun. -/
theorem find_of_promotes (hstep : Promotes g t t')
    (hfind : t.find id = some row) (hskippable : ¬ row.status.isSkippable) :
    t'.find id = some row := by
  obtain ⟨nodeId, other, current, hget, hpending, -⟩ := hstep
  have hne : id ≠ other := by
    rintro rfl
    rw [(get_eq_some hget).1] at hfind
    rw [← Option.some.inj hfind, hpending] at hskippable
    exact hskippable (by decide)
  rw [NodeTable.find_setStatus, if_neg hne, hfind]

/-- An unlock changes only rows no worker has begun. -/
theorem find_of_unlockStep (hstep : UnlockStep g skips t₀ t t')
    (hfind : t.find id = some row) (hskippable : ¬ row.status.isSkippable) :
    t'.find id = some row := by
  have hother : ∀ nodeId other current, t.get nodeId = some (other, current) →
      current.status.isSkippable → id ≠ other := by
    rintro nodeId other current hget hcurrent rfl
    rw [(get_eq_some hget).1] at hfind
    exact hskippable (Option.some.inj hfind ▸ hcurrent)
  cases hstep with
  | promote h => exact find_of_promotes h hfind hskippable
  | skipTarget now edge other current _ hget hcurrent =>
    rw [find_modify_of_ne _ _ (hother _ other current hget hcurrent), hfind]
  | skipJoin now nodeId other current hget hcurrent _ _ =>
    rw [find_modify_of_ne _ _ (hother _ other current hget hcurrent), hfind]

/-- Handing out iteration rows changes only rows no worker has begun. -/
theorem Spawns.find_of_not_skippable (h : Spawns node keys t t') (hfind : t.find id = some row)
    (hskippable : ¬ row.status.isSkippable) : t'.find id = some row := by
  by_cases hnode : id.nodeId = node.id
  · obtain ⟨nodeId, key⟩ := id
    obtain rfl : nodeId = node.id := hnode
    by_cases hkey : key = ""
    · subst hkey
      rcases h.placeholder with hsame | ⟨old, row', hold, hskip, -⟩
      · rw [hsame, hfind]
      · rw [hfind] at hold
        exact absurd (Option.some.inj hold ▸ hskip) hskippable
    · by_cases hmem : key ∈ keys
      · obtain ⟨row', hrow', hcase⟩ := h.keyed key hmem
        rcases hcase with ⟨hsame, -⟩ | ⟨-, hnone | ⟨old, hold, hpending⟩⟩
        · rw [hrow', ← hsame, hfind]
        · rw [hfind] at hnone
          simp at hnone
        · rw [hfind] at hold
          rw [Option.some.inj hold, hpending] at hskippable
          exact absurd (by decide) hskippable
      · rw [h.unkeyed key hkey hmem, hfind]
  · rw [h.other id hnode, hfind]

/-- A row no worker has begun is still there afterwards, and does not wait. -/
theorem Spawns.row_of_skippable (h : Spawns node keys t t') (hfind : t.find id = some row)
    (hskippable : row.status.isSkippable) :
    ∃ row', t'.find id = some row' ∧ row'.status ≠ .waiting := by
  have hwaiting : row.status ≠ .waiting := by
    intro hwaiting
    rw [hwaiting] at hskippable
    exact absurd hskippable (by decide)
  by_cases hnode : id.nodeId = node.id
  · obtain ⟨nodeId, key⟩ := id
    obtain rfl : nodeId = node.id := hnode
    by_cases hkey : key = ""
    · subst hkey
      rcases h.placeholder with hsame | ⟨old, row', -, -, hrow', hsuperseded, -⟩
      · exact ⟨row, by rw [hsame, hfind], hwaiting⟩
      · refine ⟨row', hrow', fun hwaits ↦ ?_⟩
        simp [NodeRun.isSuperseded, hwaits] at hsuperseded
    · by_cases hmem : key ∈ keys
      · obtain ⟨row', hrow', hcase⟩ := h.keyed key hmem
        refine ⟨row', hrow', ?_⟩
        rcases hcase with ⟨hsame, -⟩ | ⟨hready, -⟩
        · rwa [mem_unique hsame hfind]
        · rw [hready]
          decide
      · exact ⟨row, by rw [h.unkeyed key hkey hmem, hfind], hwaiting⟩
  · exact ⟨row, by rw [h.other id hnode, hfind], hwaiting⟩

theorem find_of_spawnStep {source : String} {fanOut : Bool} (hstep : SpawnStep g source fanOut keys t t')
    (hfind : t.find id = some row) (hskippable : ¬ row.status.isSkippable) :
    t'.find id = some row := by
  cases hstep with
  | promote h => exact find_of_promotes h hfind hskippable
  | spawn edge node _ _ _ hspawns => exact hspawns.find_of_not_skippable hfind hskippable

/-- An unlock neither creates nor deletes rows. -/
theorem find_isSome_of_unlockStep (hstep : UnlockStep g skips t₀ t t')
    (id : RowId) : (t'.find id).isSome = (t.find id).isSome := by
  have hmodify : ∀ (other : RowId) (f : NodeRun → NodeRun),
      ((t.modify other f).find id).isSome = (t.find id).isSome := by
    intro other f
    rw [find_modify]
    split_ifs <;> simp
  cases hstep with
  | promote h =>
    obtain ⟨nodeId, other, current, -, -, -⟩ := h
    exact hmodify other _
  | skipTarget now edge other current _ _ _ | skipJoin now nodeId other current _ _ _ _ => exact hmodify other _

theorem allPredsSkipped_iff :
    allPredsSkipped g t nodeId ↔ g.predecessors nodeId ≠ [] ∧
      ∀ edge ∈ g.predecessors nodeId, t.rowsOf edge.source ≠ [] ∧
        ∀ entry ∈ t.rowsOf edge.source, entry.2.status = .skipped := by
  simp only [allPredsSkipped, decide_eq_true_eq, List.all_eq_true, List.isEmpty_iff, ne_eq]

/-- Once all predecessors of a node are skipped, they stay so along an unlock. -/
theorem allPredsSkipped_of_unlockStep (hstep : UnlockStep g skips t₀ t t')
    (h : allPredsSkipped g t nodeId) : allPredsSkipped g t' nodeId := by
  rw [allPredsSkipped_iff] at h ⊢
  refine ⟨h.1, fun edge hedge ↦ ?_⟩
  obtain ⟨hne, hskipped⟩ := h.2 edge hedge
  have hkept : ∀ entry ∈ t.rowsOf edge.source, entry ∈ t'.rowsOf edge.source := by
    intro entry hentry
    rw [mem_rowsOf] at hentry ⊢
    refine ⟨find_of_unlockStep hstep hentry.1 ?_, hentry.2⟩
    rw [hskipped entry (mem_rowsOf.mpr hentry)]
    decide
  constructor
  · obtain ⟨entry, hentry⟩ := exists_mem_of_ne_nil _ hne
    exact ne_nil_of_mem (hkept entry hentry)
  · intro entry hentry
    rw [mem_rowsOf] at hentry
    have hsome : (t.find entry.1).isSome := by
      rw [← find_isSome_of_unlockStep hstep, hentry.1]
      rfl
    obtain ⟨row, hrow⟩ := isSome_iff_exists.mp hsome
    have hrowSkipped := hskipped (entry.1, row) (mem_rowsOf.mpr ⟨hrow, hentry.2⟩)
    have hfind := find_of_unlockStep hstep hrow (by rw [hrowSkipped]; decide)
    rw [hentry.1] at hfind
    exact Option.some.inj hfind ▸ hrowSkipped

/-- The state of the cascade: a run of unlock steps so far, and a queue of nodes that may be
skipped, the first one because of its edge and the others because the call has skipped the last of
their predecessors. -/
def CascadeInv (g : WorkflowGraph) (skips : GraphEdge → Prop) (t₀ : NodeTable) (start : String)
    (queue : List String) (nodes : NodeTable) : Prop :=
  ReflTransGen (UnlockStep g skips t₀) t₀ nodes ∧
    ∀ nodeId ∈ queue, nodeId = start ∨
      (allPredsSkipped g nodes nodeId ∧ ¬ allPredsSkipped g t₀ nodeId)

theorem CascadeInv.step {nodes nodes' : NodeTable}
    (h : CascadeInv g skips t₀ start queue nodes) (hstep : UnlockStep g skips t₀ nodes nodes') :
    CascadeInv g skips t₀ start queue nodes' := by
  refine ⟨h.1.tail hstep, fun nodeId hmem ↦ ?_⟩
  rcases h.2 nodeId hmem with hstart | ⟨hskipped, hnew⟩
  · exact .inl hstart
  · exact .inr ⟨allPredsSkipped_of_unlockStep hstep hskipped, hnew⟩

theorem cascadeEdge_inv (acc : NodeTable × List String)
    (hnew : ¬ allPredsSkipped g t₀ edge.target)
    (h : CascadeInv g skips t₀ start (queue ++ acc.2) acc.1) :
    CascadeInv g skips t₀ start (queue ++ (cascadeEdge g acc edge).2) (cascadeEdge g acc edge).1 := by
  unfold cascadeEdge
  split_ifs with hskipped
  · refine ⟨h.1, fun nodeId hmem ↦ ?_⟩
    rw [← append_assoc, mem_append, mem_singleton] at hmem
    rcases hmem with hold | rfl
    · exact h.2 nodeId hold
    · exact .inr ⟨hskipped, hnew⟩
  · split
    · exact h
    · rename_i id hid
      exact h.step (.promote (promotes_of_promotable hid))

/-- A node with a predecessor that is not skipped yet has not all its predecessors skipped. -/
theorem not_allPredsSkipped_of_skippable (hedge : edge ∈ g.successors edge.source) {current : RowId × NodeRun}
    (hget : t.get edge.source = some current) (hskippable : current.2.status.isSkippable) :
    ¬ allPredsSkipped g t edge.target := by
  intro hskipped
  rw [allPredsSkipped_iff] at hskipped
  have hmem : edge ∈ g.predecessors edge.target :=
    mem_predecessors.mpr ⟨(mem_successors.mp hedge).1, rfl⟩
  have hstatus := (hskipped.2 edge hmem).2 current
    (mem_rowsOf.mpr (get_eq_some hget))
  rw [hstatus] at hskippable
  exact absurd hskippable (by decide)

theorem cascadeBody_inv (hedge : skips edge) (now : Time)
    (currentId : String) (queue : List String) (acc : Unlocked)
    (h : CascadeInv g skips t₀ edge.target (currentId :: queue) acc.nodes) :
    CascadeInv g skips t₀ edge.target (queue ++ (cascadeBody g now currentId acc).2)
      (cascadeBody g now currentId acc).1.nodes := by
  have htail : CascadeInv g skips t₀ edge.target queue acc.nodes :=
    ⟨h.1, fun nodeId hmem ↦ h.2 nodeId (mem_cons_of_mem _ hmem)⟩
  unfold cascadeBody
  split
  · simpa using htail
  · rename_i current hget
    split_ifs with hskippable
    · have hstatus : current.2.status.isSkippable := by simpa using hskippable
      have hskip : UnlockStep g skips t₀ acc.nodes
          (acc.nodes.modify current.1 (skip now)) := by
        rcases h.2 currentId mem_cons_self with rfl | ⟨hpreds, hnew⟩
        · exact .skipTarget now edge current.1 current.2 hedge hget hstatus
        · exact .skipJoin now currentId current.1 current.2 hget hstatus hpreds hnew
      -- a successor had this node as an open predecessor when the call began
      have hnew : ∀ out ∈ g.successors currentId, ¬ allPredsSkipped g t₀ out.target := by
        intro out hout hbefore
        have hsource := (mem_successors.mp hout).2
        refine not_allPredsSkipped_of_skippable (by rwa [hsource]) (by rwa [hsource]) hstatus ?_
        exact ReflTransGen.invariant (P := fun t ↦ allPredsSkipped g t out.target)
          (fun _ _ hskipped hstep ↦ allPredsSkipped_of_unlockStep hstep hskipped) h.1 hbefore
      refine foldl_invariant (P := fun acc' : NodeTable × List String ↦
        CascadeInv g skips t₀ edge.target (queue ++ acc'.2) acc'.1) ?_ ?_
      · intro acc' out hout hacc
        exact cascadeEdge_inv acc' (hnew out hout) hacc
      · simpa using htail.step hskip
    · simpa using htail

/-- The cascade from the target of an edge whose target is skipped continues the run. -/
theorem cascadeSkip_steps (hedge : skips edge) (now : Time) (hrun : ReflTransGen (UnlockStep g skips t₀) t₀ t) :
    ReflTransGen (UnlockStep g skips t₀) t₀ (cascadeSkip g now t edge.target).nodes := by
  refine (worklist_invariant (P := fun queue (acc : Unlocked) ↦
    CascadeInv g skips t₀ edge.target queue acc.nodes) ?_ _ _ _ ?_).1
  · intro currentId queue acc h
    exact cascadeBody_inv hedge now currentId queue acc h
  · refine ⟨hrun, fun nodeId hmem ↦ .inl ?_⟩
    rwa [mem_singleton] at hmem

/-- The out-edges a finished row skips: those with a label other than the branch it names, when one
of its out-edges has a label at all. -/
def SkippedEdge (g : WorkflowGraph) (sourceId : String) (output : JsonObject) (edge : GraphEdge) :
    Prop :=
  edge ∈ g.successors sourceId ∧ hasConditional (g.successors sourceId) ∧
    ∃ branch label, emittedBranch output = some branch ∧ edge.condition = some label ∧ label ≠ branch

/-- `unlock_after_node_success` promotes, skips the targets of the edges it has to skip, and skips
joins whose predecessors are all skipped; it does nothing else. -/
theorem unlockAfterNodeSuccess_steps (now : Time) (t : NodeTable) (sourceId : String)
    (output : JsonObject) :
    ReflTransGen (UnlockStep g (SkippedEdge g sourceId output) t) t
      (unlockAfterNodeSuccess g now t sourceId output).nodes := by
  have hpromote : ReflTransGen (UnlockStep g (SkippedEdge g sourceId output) t) t
      (promoteTargets g t (g.successors sourceId)).nodes :=
    promoteTargets_steps (fun _ _ h ↦ .promote h) t _
  unfold unlockAfterNodeSuccess
  split
  · rename_i branch hbranch
    dsimp only
    split_ifs with hconditional
    · refine foldl_invariant (P := fun acc : Unlocked ↦
        ReflTransGen (UnlockStep g (SkippedEdge g sourceId output) t) t acc.nodes) ?_ .refl
      intro acc edge hedge hrun
      unfold unlockEdge
      split_ifs with hnone hmatch
      · exact hrun
      · exact hrun.trans (promote_steps (fun _ _ h ↦ .promote h) acc edge.target)
      · rw [not_or] at hmatch
        obtain ⟨label, hlabel⟩ := ne_none_iff_exists'.mp hmatch.1
        have hskips : SkippedEdge g sourceId output edge :=
          ⟨hedge, hconditional, branch, label, hbranch, hlabel,
            fun h ↦ hmatch.2 (by rw [hlabel, h])⟩
        exact (cascadeSkip_steps hskips now hrun).trans
          (promoteTargets_steps (fun _ _ h ↦ .promote h) _ _)
    · exact hpromote
  · exact hpromote

end Unlock

/-! ### Fan-out refines the relations -/

section Fanout

theorem spawns_spawnItems (node : GraphNode) (fanOutNodeId : String)
    (keyed : List (String × Json)) (hkeys : ∀ pair ∈ keyed, pair.1 ≠ "") (acc : Materialized)
    (f : NodeRun → NodeRun)
    (hf : ∀ row, (f row).isSuperseded ∧ (f row).nodeType = row.nodeType ∧
      (f row).resumeToken = row.resumeToken) :
    Spawns node (keyed.map Prod.fst) acc.nodes
      (keyed.foldl (spawnItem node fanOutNodeId)
        { acc with nodes := supersedePlaceholder acc.nodes node.id f }).nodes := by
  have hsuperseded := find_supersedePlaceholder acc.nodes node.id f
  have hplaceholder : ∀ key, key ≠ "" → (⟨node.id, key⟩ : RowId) ≠ ⟨node.id, ""⟩ := by
    intro key hkey h
    exact hkey (congrArg RowId.iterationKey h)
  have hnone : ∀ id : RowId, (∀ pair ∈ keyed, id ≠ ⟨node.id, pair.1⟩) →
      (keyed.find? fun pair ↦ id = ⟨node.id, pair.1⟩) = none := by
    intro id h
    rw [find?_eq_none]
    intro pair hpair
    simpa using h pair hpair
  have hempty : (keyed.find? fun pair ↦ (⟨node.id, ""⟩ : RowId) = ⟨node.id, pair.1⟩) = none := by
    refine hnone _ fun pair hpair h ↦ hkeys pair hpair ?_
    exact (congrArg RowId.iterationKey h).symm
  constructor
  · intro key hkey
    obtain ⟨pair, hpair, rfl⟩ := List.mem_map.mp hkey
    exact hkeys pair hpair
  · intro id hid
    rw [find_spawnItems, hnone id fun pair _ h ↦ hid (by rw [h])]
    simp only [hsuperseded, if_neg fun h : id = ⟨node.id, ""⟩ ↦ hid (by rw [h])]
  · intro key hkey hmem
    rw [find_spawnItems, hnone _ fun pair hpair h ↦ hmem (List.mem_map.mpr
      ⟨pair, hpair, (congrArg RowId.iterationKey h).symm⟩)]
    simp only [hsuperseded, if_neg (hplaceholder key hkey)]
  · intro key hkey
    obtain ⟨found, hfound⟩ : ∃ found, (keyed.find? fun pair ↦
        (⟨node.id, key⟩ : RowId) = ⟨node.id, pair.1⟩) = some found := by
      rw [← isSome_iff_exists, find?_isSome]
      obtain ⟨pair, hpair, rfl⟩ := List.mem_map.mp hkey
      exact ⟨pair, hpair, by simp⟩
    have hne : key ≠ "" := by
      obtain ⟨pair, hpair, rfl⟩ := List.mem_map.mp hkey
      exact hkeys pair hpair
    rw [find_spawnItems, hfound]
    simp only [hsuperseded, if_neg (hplaceholder key hne)]
    refine ⟨_, rfl, ?_⟩
    cases hold : acc.nodes.find ⟨node.id, key⟩ with
    | none => exact .inr ⟨rfl, .inl rfl⟩
    | some row =>
      by_cases hpending : row.status = .pending
      · refine .inr ⟨?_, .inr ⟨row, rfl, hpending⟩⟩
        simp [seeded, hpending]
      · refine .inl ?_
        simp [seeded, hpending]
  · rw [find_spawnItems, hempty]
    simp only [hsuperseded, if_true]
    cases hold : acc.nodes.find ⟨node.id, ""⟩ with
    | none => exact .inl rfl
    | some row =>
      by_cases hskippable : row.status.isSkippable
      · refine .inr ⟨row, f row, rfl, hskippable, ?_, (hf row).1, (hf row).2.1⟩
        simp [hskippable]
      · refine .inl ?_
        simp [hskippable]
  · intro key hkey row' hrow'
    have hne : key ≠ "" := by
      obtain ⟨pair, hpair, rfl⟩ := List.mem_map.mp hkey
      exact hkeys pair hpair
    rw [find_spawnItems] at hrow'
    simp only [hsuperseded, if_neg (hplaceholder key hne)] at hrow'
    split at hrow'
    · exact .inr ⟨row', hrow', rfl⟩
    · rw [← Option.some.inj hrow']
      cases hold : acc.nodes.find ⟨node.id, key⟩ with
      | none => exact .inl rfl
      | some row =>
        refine .inr ⟨row, rfl, ?_⟩
        unfold seeded
        dsimp only
        split_ifs <;> rfl
  · intro _ row' hrow'
    rw [find_spawnItems, hempty] at hrow'
    simp only [hsuperseded, if_true, map_eq_some_iff] at hrow'
    obtain ⟨row, -, rfl⟩ := hrow'
    split_ifs with hskippable
    · have hskipped : (f row).status = .skipped := by
        have := (hf row).1
        simp only [NodeRun.isSuperseded, decide_eq_true_eq] at this
        exact this.1
      rw [hskipped]
      decide
    · exact hskippable
  · intro id row' hrow'
    rw [find_spawnItems] at hrow'
    split at hrow'
    · rw [hsuperseded] at hrow'
      split_ifs at hrow' with hid
      · obtain ⟨row, hrow, rfl⟩ := map_eq_some_iff.mp hrow'
        refine .inr ⟨row, hrow, ?_⟩
        split_ifs
        · exact (hf row).2
        · exact ⟨rfl, rfl⟩
      · exact .inr ⟨row', hrow', rfl, rfl⟩
    · rename_i pair hpair
      have hid : id ≠ ⟨node.id, ""⟩ := by
        rintro rfl
        rw [hempty] at hpair
        simp at hpair
      simp only [hsuperseded, if_neg hid, Option.some.injEq] at hrow'
      rw [← hrow']
      cases hold : acc.nodes.find id with
      | none => exact .inl ⟨rfl, rfl, rfl⟩
      | some row =>
        refine .inr ⟨row, rfl, ?_⟩
        unfold seeded
        dsimp only
        split_ifs <;> exact ⟨rfl, rfl⟩

theorem supersede_spec (now : Time) (row : NodeRun) :
    ({ row.supersede now with errorJson := none } : NodeRun).isSuperseded ∧
      ({ row.supersede now with errorJson := none } : NodeRun).nodeType = row.nodeType ∧
      ({ row.supersede now with errorJson := none } : NodeRun).resumeToken = row.resumeToken :=
  ⟨by simp [NodeRun.isSuperseded, supersede], rfl, rfl⟩

/-- `materialize_fan_out_success` hands out the rows of the items on the targets of the fan-out and
promotes; it does nothing else. -/
theorem materializeFanOutSuccess_steps (render : Json → String) (now : Time) (t : NodeTable)
    (fanOutNodeId : String) (output : JsonObject) :
    ReflTransGen
      (SpawnStep g fanOutNodeId true ((uniqueIterationKeys render (fanOutItems output)).map Prod.fst)) t
      (materializeFanOutSuccess g render now t fanOutNodeId output).nodes := by
  refine foldl_reflTransGen Materialized.nodes { nodes := t } ?_
  intro acc edge hedge
  unfold materializeEdge
  split
  · exact .refl
  · rename_i node hnode
    have hid := id_of_node? hnode
    have hspawns := spawns_spawnItems node fanOutNodeId
      (uniqueIterationKeys render (fanOutItems output))
      (uniqueIterationKeys_ne_empty render _) acc
      (fun row ↦ { row.supersede now with errorJson := none }) (supersede_spec now)
    rw [hid] at hspawns
    split_ifs with hempty
    · rw [List.isEmpty_iff.mp hempty, foldl_nil] at hspawns
      rw [List.isEmpty_iff.mp hempty]
      refine (ReflTransGen.single (SpawnStep.spawn edge node hedge hnode (.inl rfl) hspawns)).trans ?_
      exact promoteTargets_steps (fun _ _ h ↦ .promote h) _ _
    · exact .single (.spawn edge node hedge hnode (.inl rfl) hspawns)

theorem spawns_spawnDownstream (now : Time) (node : GraphNode) {iterationKey : String}
    (hkey : iterationKey ≠ "") (output : JsonObject) (acc : Unlocked) :
    Spawns node [iterationKey] acc.nodes
      (spawnDownstream now node iterationKey output acc).nodes := by
  have hfind := find_spawnDownstream now node hkey output acc
  have hsuperseded := find_supersedePlaceholder acc.nodes node.id (supersede now)
  have hplaceholder : (⟨node.id, ""⟩ : RowId) ≠ ⟨node.id, iterationKey⟩ := by
    intro h
    exact hkey (congrArg RowId.iterationKey h).symm
  constructor
  · intro key hmem
    rw [mem_singleton] at hmem
    rwa [hmem]
  · intro id hid
    have hne : ∀ key, id ≠ ⟨node.id, key⟩ := fun key h ↦ hid (congrArg RowId.nodeId h)
    rw [hfind, if_neg (hne iterationKey), hsuperseded, if_neg (hne ""), ite_self]
  · intro key hne hmem
    rw [mem_singleton] at hmem
    have hkeyed : (⟨node.id, key⟩ : RowId) ≠ ⟨node.id, iterationKey⟩ :=
      fun h ↦ hmem (congrArg RowId.iterationKey h)
    have hunkeyed : (⟨node.id, key⟩ : RowId) ≠ ⟨node.id, ""⟩ :=
      fun h ↦ hne (congrArg RowId.iterationKey h)
    rw [hfind, if_neg hkeyed, hsuperseded, if_neg hunkeyed, ite_self]
  · intro key hmem
    rw [mem_singleton] at hmem
    subst hmem
    rw [hfind, if_pos rfl]
    refine ⟨_, rfl, ?_⟩
    cases hold : acc.nodes.find ⟨node.id, key⟩ with
    | none => exact .inr ⟨rfl, .inl rfl⟩
    | some row =>
      by_cases hpending : row.status = .pending
      · refine .inr ⟨?_, .inr ⟨row, rfl, hpending⟩⟩
        simp [hpending]
      · refine .inl ?_
        simp [hpending]
  · rw [hfind, if_neg hplaceholder]
    split_ifs with habsent
    · rw [hsuperseded, if_pos rfl]
      cases hold : acc.nodes.find ⟨node.id, ""⟩ with
      | none => exact .inl rfl
      | some row =>
        by_cases hskippable : row.status.isSkippable
        · refine .inr ⟨row, row.supersede now, rfl, hskippable, ?_, ?_, rfl⟩
          · simp [hskippable]
          · simp [NodeRun.isSuperseded, supersede]
        · refine .inl ?_
          simp [hskippable]
    · exact .inl rfl
  · intro key hmem row' hrow'
    rw [mem_singleton] at hmem
    subst hmem
    rw [hfind, if_pos rfl] at hrow'
    rw [← Option.some.inj hrow']
    cases hold : acc.nodes.find ⟨node.id, key⟩ with
    | none => exact .inl rfl
    | some row =>
      refine .inr ⟨row, rfl, ?_⟩
      dsimp only
      split_ifs <;> rfl
  · rintro ⟨key, hmem, habsent⟩ row' hrow'
    rw [mem_singleton] at hmem
    subst hmem
    rw [hfind, if_neg hplaceholder, if_pos habsent, hsuperseded, if_pos rfl,
      map_eq_some_iff] at hrow'
    obtain ⟨row, -, rfl⟩ := hrow'
    split_ifs with hskippable
    · exact (by decide : ¬ NodeStatus.skipped.isSkippable)
    · exact hskippable
  · intro id row' hrow'
    rw [hfind] at hrow'
    by_cases hid : id = ⟨node.id, iterationKey⟩
    · rw [if_pos hid] at hrow'
      rw [← Option.some.inj hrow', hid]
      cases hold : acc.nodes.find ⟨node.id, iterationKey⟩ with
      | none => exact .inl ⟨rfl, rfl, rfl⟩
      | some row =>
        refine .inr ⟨row, rfl, ?_⟩
        dsimp only
        split_ifs <;> exact ⟨rfl, rfl⟩
    · rw [if_neg hid] at hrow'
      split_ifs at hrow' with habsent
      · rw [hsuperseded] at hrow'
        split_ifs at hrow'
        · obtain ⟨row, hrow, rfl⟩ := map_eq_some_iff.mp hrow'
          refine .inr ⟨row, hrow, ?_⟩
          split_ifs <;> exact ⟨rfl, rfl⟩
        · exact .inr ⟨row', hrow', rfl, rfl⟩
      · exact .inr ⟨row', hrow', rfl, rfl⟩

/-- `ensure_downstream_iteration` hands out the row of its key on the targets of the iteration and
promotes; it does nothing else. -/
theorem ensureDownstreamIteration_steps (now : Time) (t : NodeTable)
    (sourceNodeId iterationKey : String) (output : JsonObject) :
    ReflTransGen (SpawnStep g sourceNodeId false [iterationKey]) t
      (ensureDownstreamIteration g now t sourceNodeId iterationKey output).nodes := by
  unfold ensureDownstreamIteration
  split_ifs with hkey
  · exact .refl
  · refine foldl_reflTransGen Unlocked.nodes { nodes := t } ?_
    intro acc edge hedge
    unfold ensureEdge
    split
    · exact .refl
    · rename_i node hnode
      split_ifs with hmerge
      · exact promote_steps (fun _ _ h ↦ .promote h) acc edge.target
      · have htype : node.type ≠ "merge" := by
          intro htype
          exact hmerge (by simp [isMergeTarget, htype])
        exact .single (.spawn edge node hedge hnode (.inr htype)
          (spawns_spawnDownstream now node hkey output acc))

end Fanout

end ContentGenerator.Workflows

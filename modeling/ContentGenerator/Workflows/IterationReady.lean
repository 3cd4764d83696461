import ContentGenerator.Workflows.Inputs
import ContentGenerator.Workflows.Runs

/-!
# Readiness of iteration rows

The two fan-out functions make iteration rows `READY` without asking `is_ready`. Whether every
incoming edge of such a row is satisfied when the call returns (`IterationsReady`) is decided by the
rows before the call: `iterationsReady_iff` gives the condition, `SpawnsSatisfied`.

`Handed` is the exact effect of a call on the iteration rows: what it hands out becomes `READY`, and
everything else stays.
-/

namespace ContentGenerator.Workflows

open Lib Relation List Option NodeTable WorkflowGraph

variable {g : WorkflowGraph} {keys : List String} {node : GraphNode} {t t' : NodeTable} {env : EngineEnv}
  {now : Time}

/-! ### The effect of a call on iteration rows -/

/-- The rows under the keys on the targets are handed out: those absent or pending become `READY`.
Other iteration rows stay, and so does whether the placeholder of another node satisfies an edge. -/
structure Handed (targets keys : List String) (t t' : NodeTable) : Prop where
  fresh : ∀ nodeId ∈ targets, ∀ key ∈ keys,
    (∀ row ∈ t.find ⟨nodeId, key⟩, row.status = .pending) →
      ∃ row' ∈ t'.find ⟨nodeId, key⟩, row'.status = .ready
  kept : ∀ nodeId key, key ≠ "" →
    (nodeId ∉ targets ∨ key ∉ keys ∨ ∃ row ∈ t.find ⟨nodeId, key⟩, row.status ≠ .pending) →
      t'.find ⟨nodeId, key⟩ = t.find ⟨nodeId, key⟩
  placeholder : ∀ nodeId ∉ targets, ∀ edge,
    ((t'.find ⟨nodeId, ""⟩).any fun row ↦ branchSatisfied edge row.status) =
      (t.find ⟨nodeId, ""⟩).any fun row ↦ branchSatisfied edge row.status

theorem Handed.refl (keys : List String) (t : NodeTable) : Handed [] keys t t where
  fresh := by simp
  kept := fun _ _ _ _ ↦ rfl
  placeholder := fun _ _ _ ↦ rfl

/-- What is handed out twice stays as it was handed out first. -/
theorem Handed.trans {a b : List String} {t'' : NodeTable}
    (hkeys : ∀ key ∈ keys, key ≠ "") (h : Handed a keys t t') (h' : Handed b keys t' t'') :
    Handed (a ++ b) keys t t'' := by
  constructor
  · intro nodeId hmem key hkey hfree
    by_cases ha : nodeId ∈ a
    · obtain ⟨row', hrow', hready⟩ := h.fresh nodeId ha key hkey hfree
      refine ⟨row', ?_, hready⟩
      rw [h'.kept nodeId key (hkeys key hkey) (.inr (.inr ⟨row', hrow', by rw [hready]; decide⟩))]
      exact hrow'
    · have hb : nodeId ∈ b := (mem_append.mp hmem).resolve_left ha
      refine h'.fresh nodeId hb key hkey ?_
      rwa [h.kept nodeId key (hkeys key hkey) (.inl ha)]
  · intro nodeId key hne hcase
    have hfirst : t'.find ⟨nodeId, key⟩ = t.find ⟨nodeId, key⟩ := by
      refine h.kept nodeId key hne ?_
      rcases hcase with hmem | hkey | hrow
      · exact .inl fun ha ↦ hmem (mem_append_left _ ha)
      · exact .inr (.inl hkey)
      · exact .inr (.inr hrow)
    rw [← hfirst]
    refine h'.kept nodeId key hne ?_
    rcases hcase with hmem | hkey | hrow
    · exact .inl fun hb ↦ hmem (mem_append_right _ hb)
    · exact .inr (.inl hkey)
    · rw [hfirst]
      exact .inr (.inr hrow)
  · intro nodeId hmem edge
    rw [h'.placeholder nodeId (fun hb ↦ hmem (mem_append_right _ hb)) edge,
      h.placeholder nodeId (fun ha ↦ hmem (mem_append_left _ ha)) edge]

/-- A promotion hands out nothing: it reaches placeholders, and those it reaches satisfy no edge
before or after. -/
theorem handed_of_promotes (hwf : WellFormed g t)
    (hstep : Promotes g t t') (keys : List String) : Handed [] keys t t' := by
  obtain ⟨nodeId, id, row, hget, hpending, -⟩ := hstep
  obtain rfl := hwf.get_id hget
  have hfind := (get_eq_some hget).1
  refine ⟨by simp, fun other key hne _ ↦ ?_, fun other _ edge ↦ ?_⟩
  · rw [find_setStatus, if_neg fun h ↦ hne (congrArg RowId.iterationKey h)]
  · rw [find_setStatus]
    split_ifs with hsame
    · rw [hsame, hfind]
      simp [branchSatisfied, NodeStatus.isSuccess, hpending]
    · rfl

theorem handed_of_promotions (hwf : WellFormed g t)
    (hrun : ReflTransGen (Promotes g) t t') (keys : List String) (hkeys : ∀ key ∈ keys, key ≠ "") :
    Handed [] keys t t' ∧ WellFormed g t' := by
  refine ReflTransGen.invariant (P := fun s ↦ Handed [] keys t s ∧ WellFormed g s) ?_ hrun
    ⟨.refl keys t, hwf⟩
  rintro s s' ⟨hhanded, hs⟩ hstep
  exact ⟨hhanded.trans hkeys (handed_of_promotes hs hstep keys), hs.promotes hstep⟩

theorem handed_of_spawns
    (h : Spawns node keys t t') : Handed [node.id] keys t t' := by
  constructor
  · intro nodeId hmem key hkey hfree
    obtain rfl := mem_singleton.mp hmem
    obtain ⟨row', hrow', ⟨hsame, hne⟩ | ⟨hready, -⟩⟩ := h.keyed key hkey
    · exact absurd (hfree row' hsame) hne
    · exact ⟨row', hrow', hready⟩
  · intro nodeId key hne hcase
    by_cases hnode : nodeId = node.id
    · subst hnode
      rcases hcase with hmem | hkey | ⟨row, hrow, hbegun⟩
      · exact absurd (mem_singleton.mpr rfl) hmem
      · exact h.unkeyed key hne hkey
      · by_cases hkey : key ∈ keys
        · obtain ⟨row', hrow', ⟨hsame, -⟩ | ⟨-, hnone | ⟨old, hold, hpending⟩⟩⟩ := h.keyed key hkey
          · rw [hrow', hsame]
          · rw [mem_def, hnone] at hrow
            simp at hrow
          · rw [mem_def, hold] at hrow
            rw [← Option.some.inj hrow] at hbegun
            exact absurd hpending hbegun
        · exact h.unkeyed key hne hkey
    · exact h.other _ hnode
  · intro nodeId hmem edge
    rw [h.other ⟨nodeId, ""⟩ fun hnode ↦ hmem (mem_singleton.mpr hnode)]

/-! ### The two functions -/

section Calls

theorem handed_foldl {β : Type*} (view : β → NodeTable) {f : β → GraphEdge → β}
    (targetsOf : GraphEdge → List String) (hkeys : ∀ key ∈ keys, key ≠ "")
    (hstep : ∀ acc edge, WellFormed g (view acc) →
      Handed (targetsOf edge) keys (view acc) (view (f acc edge)) ∧ WellFormed g (view (f acc edge)))
    (l : List GraphEdge) (acc : β) (hwf : WellFormed g (view acc)) :
    Handed (l.flatMap targetsOf) keys (view acc) (view (l.foldl f acc)) := by
  induction l generalizing acc with
  | nil => exact .refl keys _
  | cons edge rest ih =>
    obtain ⟨hhanded, hnext⟩ := hstep acc edge hwf
    rw [flatMap_cons, foldl_cons]
    exact hhanded.trans hkeys (ih (f acc edge) hnext)

/-- The target of an out-edge whose rows are handed out: a fan-out hands out on every target, an
iteration only on those that are no merges. -/
def spawnTarget (g : WorkflowGraph) (fanOut : Bool) (edge : GraphEdge) : List String :=
  match g.node? edge.target with
  | none => []
  | some node => if fanOut ∨ node.type ≠ "merge" then [node.id] else []

theorem handed_materializeEdge (now : Time) (fanOutNodeId : String) {keyed : List (String × Json)}
    (hkeyed : ∀ pair ∈ keyed, pair.1 ≠ "") (acc : Materialized) (edge : GraphEdge)
    (hwf : WellFormed g acc.nodes) :
    Handed (spawnTarget g true edge) (keyed.map Prod.fst) acc.nodes
        (materializeEdge g now fanOutNodeId keyed acc edge).nodes ∧
      WellFormed g (materializeEdge g now fanOutNodeId keyed acc edge).nodes := by
  have hkeys : ∀ key ∈ keyed.map Prod.fst, key ≠ "" := by
    intro key hkey
    obtain ⟨pair, hpair, rfl⟩ := List.mem_map.mp hkey
    exact hkeyed pair hpair
  unfold spawnTarget materializeEdge
  cases hnode : g.node? edge.target with
  | none => exact ⟨.refl _ _, hwf⟩
  | some node =>
    have hid := id_of_node? hnode
    have hspawns := spawns_spawnItems node fanOutNodeId keyed hkeyed acc
      (fun row ↦ { row.supersede now with errorJson := none }) (supersede_spec now)
    have hspawned := hwf.spawns (by rwa [hid]) hspawns
    simp only [true_or, if_true]
    rw [hid] at hspawns hspawned
    split_ifs with hempty
    · rw [List.isEmpty_iff.mp hempty, foldl_nil] at hspawns hspawned
      rw [List.isEmpty_iff.mp hempty]
      obtain ⟨hpromoted, hdone⟩ := handed_of_promotions hspawned
        (promoteTargets_steps (fun _ _ h ↦ h) _ (g.successors edge.target)) [] (by simp)
      have hhanded := (handed_of_spawns hspawns).trans (by simp) hpromoted
      rw [append_nil] at hhanded
      exact ⟨hhanded, hdone⟩
    · exact ⟨handed_of_spawns hspawns, hspawned⟩

theorem isMergeTarget_iff (hwf : WellFormed g t)
    (hnode : g.node? node.id = some node) : isMergeTarget t node ↔ node.type = "merge" := by
  unfold isMergeTarget
  rw [decide_eq_true_eq]
  refine or_iff_left_of_imp fun hprimary ↦ ?_
  obtain ⟨⟨id, row⟩, hget, htype⟩ := map_eq_some_iff.mp hprimary
  obtain ⟨hfind, hid⟩ := get_eq_some hget
  obtain ⟨node', hnode', hrow⟩ := hwf.nodeType id row hfind
  rw [show id.nodeId = node.id from hid, hnode] at hnode'
  rw [Option.some.inj hnode', ← hrow]
  exact htype

theorem handed_ensureEdge (now : Time) {iterationKey : String} (hkey : iterationKey ≠ "")
    (output : JsonObject) (acc : Unlocked) (edge : GraphEdge) (hwf : WellFormed g acc.nodes) :
    Handed (spawnTarget g false edge) [iterationKey] acc.nodes
        (ensureEdge g now iterationKey output acc edge).nodes ∧
      WellFormed g (ensureEdge g now iterationKey output acc edge).nodes := by
  unfold spawnTarget ensureEdge
  cases hnode : g.node? edge.target with
  | none => exact ⟨.refl _ _, hwf⟩
  | some node =>
    have hself : g.node? node.id = some node := by rwa [id_of_node? hnode]
    have hmerge := isMergeTarget_iff hwf hself
    simp only [Bool.false_eq_true, false_or]
    by_cases htype : node.type = "merge"
    · rw [if_pos (hmerge.mpr htype), if_neg (by simpa using htype)]
      exact handed_of_promotions hwf (promote_steps (fun _ _ h ↦ h) acc edge.target) _
        (by simpa using hkey)
    · rw [if_neg (fun h ↦ htype (hmerge.mp h)), if_pos htype]
      have hspawns := spawns_spawnDownstream now node hkey output acc
      exact ⟨handed_of_spawns hspawns, hwf.spawns hself hspawns⟩

/-- The nodes on which a hand-off hands out iteration rows. -/
def HandOff.targets (g : WorkflowGraph) (h : HandOff) : List String :=
  (g.successors h.finish.id.nodeId).flatMap (spawnTarget g h.isFanOut)

/-- What a call of one of the two functions does to the iteration rows. -/
theorem HandOff.handed (now : Time) {h : HandOff} (hwf : WellFormed env.graph h.nodes)
    (hkeys : h.spawnKeys env = some keys) :
    Handed (h.targets env.graph) keys h.nodes (h.apply env now) ∧ ∀ key ∈ keys, key ≠ "" := by
  rcases h.apply_cases env now with ⟨hfan, hstatus, hsome, happly⟩ |
    ⟨hfan, hkey, hsome, happly⟩ | ⟨hnone, -⟩
  · obtain rfl := mem_unique hkeys hsome
    have hne := uniqueIterationKeys_ne_empty env.render (fanOutItems h.finish.output)
    have hkeysNe : ∀ key ∈ (uniqueIterationKeys env.render (fanOutItems h.finish.output)).map
        Prod.fst, key ≠ "" := by
      intro key hkey
      obtain ⟨pair, hpair, rfl⟩ := List.mem_map.mp hkey
      exact hne pair hpair
    refine ⟨?_, hkeysNe⟩
    rw [happly, HandOff.targets, show h.isFanOut = true by simp [HandOff.isFanOut, hfan, hstatus]]
    exact handed_foldl Materialized.nodes _ hkeysNe
      (fun acc edge hacc ↦ handed_materializeEdge now _ hne acc edge hacc) _ { nodes := h.nodes } hwf
  · obtain rfl := mem_unique hkeys hsome
    have hkeysNe : ∀ key ∈ [h.finish.id.iterationKey], key ≠ "" := by simpa using hkey
    refine ⟨?_, hkeysNe⟩
    rw [happly, HandOff.targets, show h.isFanOut = false by simpa [HandOff.isFanOut] using hfan,
      ensureDownstreamIteration, if_neg hkey]
    exact handed_foldl Unlocked.nodes _ hkeysNe
      (fun acc edge hacc ↦ handed_ensureEdge now hkey _ acc edge hacc) _ { nodes := h.nodes } hwf
  · exact absurd (hkeys.symm.trans hnone) (by simp)

end Calls

/-! ### The property and its condition -/

/-- The call makes the row `READY`. -/
def BecomesReady (t t' : NodeTable) (id : RowId) : Prop :=
  (∃ row' ∈ t'.find id, row'.status = .ready) ∧ ∀ row ∈ t.find id, row.status ≠ .ready

/-- An incoming edge is satisfied for an iteration: by the row of its source with the same key when
there is one, else by the non-iterated row. -/
def edgeSatisfied (t : NodeTable) (edge : GraphEdge) (key : String) : Bool :=
  match t.find ⟨edge.source, key⟩ with
  | some row => branchSatisfied edge row.status
  | none => (t.find ⟨edge.source, ""⟩).any fun row ↦ branchSatisfied edge row.status

/-- Every iteration row the call makes `READY` has all its incoming edges satisfied. -/
def IterationsReady (g : WorkflowGraph) (t t' : NodeTable) : Prop :=
  ∀ id : RowId, id.iterationKey ≠ "" → BecomesReady t t' id →
    ∀ edge ∈ g.predecessors id.nodeId, edgeSatisfied t' edge id.iterationKey

/-- Whenever a row is handed out that is absent or pending, every incoming edge of its node is
satisfied already; where the source of the edge has no row with the key, the call does not hand out
one either. -/
def SpawnsSatisfied (g : WorkflowGraph) (targets keys : List String) (t : NodeTable) : Prop :=
  ∀ nodeId ∈ targets, ∀ key ∈ keys, (∀ row ∈ t.find ⟨nodeId, key⟩, row.status = .pending) →
    ∀ edge ∈ g.predecessors nodeId, edgeSatisfied t edge key ∧
      (t.find ⟨edge.source, key⟩ = none → edge.source ∉ targets)

section Condition

variable {targets : List String}

/-- Only what is handed out, and was absent or pending, becomes `READY`. -/
theorem Handed.of_becomesReady (h : Handed targets keys t t') {id : RowId}
    (hne : id.iterationKey ≠ "") (hready : BecomesReady t t' id) :
    id.nodeId ∈ targets ∧ id.iterationKey ∈ keys ∧ ∀ row ∈ t.find id, row.status = .pending := by
  obtain ⟨⟨row', hrow', hstatus⟩, hbefore⟩ := hready
  by_contra hcontra
  have hkept : t'.find id = t.find id := by
    refine h.kept id.nodeId id.iterationKey hne ?_
    by_contra hcase
    push Not at hcase
    exact hcontra ⟨hcase.1, hcase.2.1, hcase.2.2⟩
  rw [hkept] at hrow'
  exact hbefore row' hrow' hstatus

/-- An incoming edge of a row that is handed out is satisfied after the call exactly when it was
before and the call does not hand out the row of its source. -/
theorem Handed.edgeSatisfied_iff (h : Handed targets keys t t') (hkeys : ∀ key ∈ keys, key ≠ "")
    {key : String} (hkey : key ∈ keys) (edge : GraphEdge) :
    edgeSatisfied t' edge key ↔ edgeSatisfied t edge key ∧
      (t.find ⟨edge.source, key⟩ = none → edge.source ∉ targets) := by
  have hunsatisfied : ∀ status : NodeStatus, status = .pending ∨ status = .ready →
      branchSatisfied edge status = false := by
    rintro status (rfl | rfl) <;> simp [branchSatisfied, NodeStatus.isSuccess]
  have hready : edge.source ∈ targets →
      (∀ row ∈ t.find ⟨edge.source, key⟩, row.status = .pending) →
      edgeSatisfied t' edge key = false := by
    intro hmem hfree
    obtain ⟨row', hrow', hstatus⟩ := h.fresh _ hmem key hkey hfree
    unfold edgeSatisfied
    rw [mem_def.mp hrow']
    exact hunsatisfied _ (.inr hstatus)
  cases hold : t.find ⟨edge.source, key⟩ with
  | none =>
    by_cases hmem : edge.source ∈ targets
    · rw [hready hmem (by simp [hold])]
      simp [hmem]
    · have hnone : t'.find ⟨edge.source, key⟩ = none := by
        rw [h.kept _ _ (hkeys key hkey) (.inl hmem), hold]
      unfold edgeSatisfied
      rw [hnone, hold]
      simp [hmem, h.placeholder _ hmem edge]
  | some row =>
    by_cases hpending : row.status = .pending
    · have hbefore : edgeSatisfied t edge key = false := by
        unfold edgeSatisfied
        rw [hold]
        exact hunsatisfied _ (.inl hpending)
      have hafter : edgeSatisfied t' edge key = false := by
        by_cases hmem : edge.source ∈ targets
        · exact hready hmem (by simpa [hold] using hpending)
        · unfold edgeSatisfied
          rw [h.kept _ _ (hkeys key hkey) (.inl hmem), hold]
          exact hunsatisfied _ (.inl hpending)
      simp [hbefore, hafter]
    · have hkept : t'.find ⟨edge.source, key⟩ = some row := by
        rw [h.kept _ _ (hkeys key hkey) (.inr (.inr ⟨row, hold, hpending⟩)), hold]
      unfold edgeSatisfied
      rw [hkept, hold]
      simp

theorem Handed.spawnsSatisfied_iff (h : Handed targets keys t t')
    (hkeys : ∀ key ∈ keys, key ≠ "") :
    IterationsReady g t t' ↔ SpawnsSatisfied g targets keys t := by
  constructor
  · intro hready nodeId hmem key hkey hfree edge hedge
    rw [← h.edgeSatisfied_iff hkeys hkey]
    refine hready ⟨nodeId, key⟩ (hkeys key hkey) ⟨h.fresh nodeId hmem key hkey hfree, ?_⟩ edge hedge
    intro row hrow hstatus
    rw [hfree row hrow] at hstatus
    exact absurd hstatus (by decide)
  · intro hsatisfied id hne hready edge hedge
    obtain ⟨hmem, hkey, hfree⟩ := h.of_becomesReady hne hready
    rw [h.edgeSatisfied_iff hkeys hkey]
    exact hsatisfied id.nodeId hmem id.iterationKey hkey hfree edge hedge

end Condition

/-- In every reachable state, a call of one of the two fan-out functions makes only rows `READY`
whose incoming edges are satisfied exactly when this holds of the rows before the call.
Assumes: the operation hands off a row to one of the two functions. -/
theorem iterationsReady_iff {allowed : Time → Op → EngineState → Prop} {st : EngineState}
    (hst : Reachable env allowed st) {op : Op} {h : HandOff} (hop : op.handOff env now st = some h)
    {keys : List String} (hkeys : h.spawnKeys env = some keys) :
    IterationsReady env.graph h.nodes (h.apply env now) ↔
      SpawnsSatisfied env.graph (h.targets env.graph) keys h.nodes := by
  obtain ⟨hhanded, hne⟩ := HandOff.handed now (hst.wellFormed_handOff hop) hkeys
  exact hhanded.spawnsSatisfied_iff hne

/-- A delay behind a fan-out and a second delay that is still open. -/
def openPredecessorGraph : WorkflowGraph where
  nodes :=
    [{ id := "t", type := "manual_trigger" }, { id := "f", type := "fan_out" },
      { id := "o", type := "delay" }, { id := "b", type := "delay" }]
  edges :=
    [{ source := "t", target := "f" }, { source := "t", target := "o" },
      { source := "f", target := "b" }, { source := "o", target := "b" }]

/-- The run in which the trigger has succeeded, and the fan-out and the second delay are claimed. -/
def openPredecessorRun : EngineState :=
  (catalogueEnv openPredecessorGraph repairedGlobals).play
    [(1, execSucceeds "t" "" 0 [("payload", .obj []), ("trigger_type", .str "manual_trigger")])]
    (startRun (catalogueEnv openPredecessorGraph repairedGlobals) 0 .inline [] [])

def fanOutOneItem : Op :=
  execSucceeds "f" "" 2 [("items", .arr [.str "x"]), ("count", .int 1), ("mode", .str "generic")]

/-- While the second delay is open, the condition fails on the fan-out's item. -/
theorem openPredecessor_iterationsReady_iff :
    ∃ h, fanOutOneItem.handOff (catalogueEnv openPredecessorGraph repairedGlobals) 2
        openPredecessorRun = some h ∧
      (IterationsReady openPredecessorGraph h.nodes
          (h.apply (catalogueEnv openPredecessorGraph repairedGlobals) 2) ↔
        SpawnsSatisfied openPredecessorGraph (h.targets openPredecessorGraph) ["x"] h.nodes) := by
  have hst : Reachable (catalogueEnv openPredecessorGraph repairedGlobals) anyOp
    openPredecessorRun := reachable_play 0 .inline [] [] (permits_anyOp _ _ _)
  obtain ⟨h, hop, hkeys⟩ : ∃ h, fanOutOneItem.handOff
      (catalogueEnv openPredecessorGraph repairedGlobals) 2 openPredecessorRun = some h ∧
      h.spawnKeys (catalogueEnv openPredecessorGraph repairedGlobals) = some ["x"] := ⟨_, rfl, rfl⟩
  exact ⟨h, hop, iterationsReady_iff hst hop hkeys⟩

/-- A successful fan-out makes the row of its item `READY` while the second predecessor of the body
is queued. -/
theorem fanOut_spawns_behind_open_predecessor :
    graphValid catalogue (fun _ ↦ []) openPredecessorGraph {} ∧
      Reachable (catalogueEnv openPredecessorGraph repairedGlobals) anyOp openPredecessorRun ∧
      ∃ h, fanOutOneItem.handOff (catalogueEnv openPredecessorGraph repairedGlobals) 2
          openPredecessorRun = some h ∧
        ¬ IterationsReady openPredecessorGraph h.nodes
          (h.apply (catalogueEnv openPredecessorGraph repairedGlobals) 2) := by
  obtain ⟨h, hop, hbefore, hafter, hopen⟩ : ∃ h, fanOutOneItem.handOff
      (catalogueEnv openPredecessorGraph repairedGlobals) 2 openPredecessorRun = some h ∧
      h.nodes.find ⟨"b", "x"⟩ = none ∧
      ((h.apply (catalogueEnv openPredecessorGraph repairedGlobals) 2).find ⟨"b", "x"⟩).map
        NodeRun.status = some .ready ∧
      edgeSatisfied (h.apply (catalogueEnv openPredecessorGraph repairedGlobals) 2)
        { source := "o", target := "b" } "x" = false := ⟨_, rfl, rfl, rfl, rfl⟩
  refine ⟨by decide +kernel, reachable_play 0 .inline [] [] (permits_anyOp _ _ _), h, hop, fun hready ↦ ?_⟩
  obtain ⟨row, hrow, hstatus⟩ := map_eq_some_iff.mp hafter
  have hsatisfied := hready ⟨"b", "x"⟩ (by decide) ⟨⟨row, hrow, hstatus⟩, by simp [hbefore]⟩
    { source := "o", target := "b" } (by simp [predecessors, openPredecessorGraph])
  rw [hopen] at hsatisfied
  simp at hsatisfied

end ContentGenerator.Workflows

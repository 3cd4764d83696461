import ContentGenerator.Lib.Transition
import ContentGenerator.Workflows.ValidGraph

/-!
# The structural checks

The structural checks of the compiler against their mathematical meaning. The searches are read as
statements about paths: `bfs` collects what is reachable (`mem_bfs_iff`), `reachableFrom` decides
whether a path exists (`reachable_iff`), and the depth-first search reports an error exactly when the
graph has a cycle (`detectCycles_eq_nil_iff`).

`StructurallySound` is what the checks are for. They pass exactly on the graphs that are sound and have
a node (`structuralChecks_iff`), so that a valid graph is sound (`graphValid_sound`), and the engine's
`root_node_ids` are its triggers.
-/

namespace ContentGenerator.Workflows

open Lib Relation List
open GraphEdge (target)

variable {a b nodeId : String} {fuel : ℕ} {next : String → List String} {nodes : List GraphNode}
  {weight : List String → ℕ}

namespace Compiler

/-! ### The breadth-first searches -/

section Search

variable {goal : String}

/-- What the search finds was seen already or is reachable from the queue. -/
theorem mem_bfs (fuel : ℕ) (queue seen : List String)
    (h : nodeId ∈ bfs next fuel queue seen) :
    nodeId ∈ seen ∨ ∃ root ∈ queue, ReflTransGen (fun a b ↦ b ∈ next a) root nodeId := by
  induction fuel generalizing queue seen with
  | zero => exact .inl h
  | succ fuel ih =>
    cases queue with
    | nil => exact .inl h
    | cons current queue =>
      unfold bfs at h
      split_ifs at h with hseen
      · rcases ih queue seen h with hold | ⟨root, hroot, hpath⟩
        · exact .inl hold
        · exact .inr ⟨root, mem_cons_of_mem _ hroot, hpath⟩
      · rcases ih _ _ h with hold | ⟨root, hroot, hpath⟩
        · rcases mem_append.mp hold with hbefore | hcurrent
          · exact .inl hbefore
          · rw [mem_singleton.mp hcurrent]
            exact .inr ⟨current, mem_cons_self, .refl⟩
        · rcases mem_append.mp hroot with hqueued | hpushed
          · exact .inr ⟨root, mem_cons_of_mem _ hqueued, hpath⟩
          · exact .inr ⟨current, mem_cons_self, .head (mem_filter.mp hpushed).1 hpath⟩

/-- The search ends with a list that is closed under `next`. Assumes: `weight` pays for every push, and
the fuel covers it. -/
theorem bfs_closed
    (hweight : ∀ seen current, current ∉ seen →
      weight (seen ++ [current]) + (next current).length ≤ weight seen)
    (fuel : ℕ) (queue seen : List String) (hfuel : queue.length + weight seen ≤ fuel)
    (hclosed : ∀ a ∈ seen, ∀ b ∈ next a, b ∈ seen ∨ b ∈ queue) :
    (∀ a, a ∈ seen ∨ a ∈ queue → a ∈ bfs next fuel queue seen) ∧
      ∀ a ∈ bfs next fuel queue seen, ∀ b ∈ next a, b ∈ bfs next fuel queue seen := by
  induction fuel generalizing queue seen with
  | zero =>
    obtain rfl : queue = [] := length_eq_zero_iff.mp (by omega)
    exact ⟨fun a h ↦ h.resolve_right not_mem_nil,
      fun a ha b hb ↦ (hclosed a ha b hb).resolve_right not_mem_nil⟩
  | succ fuel ih =>
    cases queue with
    | nil =>
      exact ⟨fun a h ↦ h.resolve_right not_mem_nil,
        fun a ha b hb ↦ (hclosed a ha b hb).resolve_right not_mem_nil⟩
    | cons current queue =>
      rw [length_cons] at hfuel
      unfold bfs
      split_ifs with hseen
      · obtain ⟨hall, hnext⟩ := ih queue seen (by omega) fun a ha b hb ↦ by
          rcases hclosed a ha b hb with hold | hqueued
          · exact .inl hold
          · rcases mem_cons.mp hqueued with rfl | hrest
            · exact .inl hseen
            · exact .inr hrest
        refine ⟨fun a h ↦ hall a ?_, hnext⟩
        rcases h with hold | hqueued
        · exact .inl hold
        · rcases mem_cons.mp hqueued with rfl | hrest
          · exact .inl hseen
          · exact .inr hrest
      · have hpaid := hweight seen current hseen
        have hpushed : ((next current).filter (· ∉ seen ++ [current])).length ≤
            (next current).length := length_filter_le _ _
        obtain ⟨hall, hnext⟩ := ih (queue ++ (next current).filter (· ∉ seen ++ [current]))
          (seen ++ [current]) (by rw [length_append]; omega) fun a ha b hb ↦ by
            by_cases hb' : b ∈ seen ++ [current]
            · exact .inl hb'
            refine .inr (mem_append.mpr ?_)
            rcases mem_append.mp ha with hold | hcurrent
            · rcases hclosed a hold b hb with hseen' | hqueued
              · exact absurd (mem_append_left _ hseen') hb'
              · rcases mem_cons.mp hqueued with rfl | hrest
                · exact absurd (mem_append_right _ (mem_singleton.mpr rfl)) hb'
                · exact .inl hrest
            · rw [mem_singleton.mp hcurrent] at hb
              exact .inr (mem_filter.mpr ⟨hb, by simpa using hb'⟩)
        refine ⟨fun a h ↦ hall a ?_, hnext⟩
        rcases h with hold | hqueued
        · exact .inl (mem_append_left _ hold)
        · rcases mem_cons.mp hqueued with rfl | hrest
          · exact .inl (mem_append_right _ (mem_singleton.mpr rfl))
          · exact .inr (mem_append_left _ hrest)

/-- Started with nothing seen, the search finds exactly what is reachable from the queue. -/
theorem mem_bfs_iff
    (hweight : ∀ seen current, current ∉ seen →
      weight (seen ++ [current]) + (next current).length ≤ weight seen)
    {queue : List String} (hfuel : queue.length + weight [] ≤ fuel) :
    nodeId ∈ bfs next fuel queue [] ↔
      ∃ root ∈ queue, ReflTransGen (fun a b ↦ b ∈ next a) root nodeId := by
  constructor
  · intro h
    exact (mem_bfs fuel queue [] h).resolve_left not_mem_nil
  · rintro ⟨root, hroot, hpath⟩
    obtain ⟨hall, hnext⟩ := bfs_closed hweight fuel queue [] hfuel (by simp)
    exact ReflTransGen.invariant (P := (· ∈ bfs next fuel queue []))
      (fun a b ha hb ↦ hnext a ha b hb) hpath (hall root (.inr hroot))

/-- When the goal is found, it is reached from the queue along an edge. -/
theorem transGen_of_reachableFrom (fuel : ℕ) (queue seen : List String)
    (h : reachableFrom next goal fuel queue seen) :
    ∃ root ∈ queue, TransGen (fun a b ↦ b ∈ next a) root goal := by
  induction fuel generalizing queue seen with
  | zero => exact absurd h (by simp [reachableFrom])
  | succ fuel ih =>
    cases queue with
    | nil => exact absurd h (by simp [reachableFrom])
    | cons current queue =>
      unfold reachableFrom at h
      split_ifs at h with hseen hgoal
      · obtain ⟨root, hroot, hpath⟩ := ih queue seen h
        exact ⟨root, mem_cons_of_mem _ hroot, hpath⟩
      · exact ⟨current, mem_cons_self, .single hgoal⟩
      · obtain ⟨root, hroot, hpath⟩ := ih _ _ h
        rcases mem_append.mp hroot with hqueued | hpushed
        · exact ⟨root, mem_cons_of_mem _ hqueued, hpath⟩
        · exact ⟨current, mem_cons_self, .head (mem_filter.mp hpushed).1 hpath⟩

/-- When the goal is not found, no entry of the closed list the search has seen leads to it. -/
theorem not_mem_of_reachableFrom
    (hweight : ∀ seen current, current ∉ seen →
      weight (seen ++ [current]) + (next current).length ≤ weight seen)
    (fuel : ℕ) (queue seen : List String) (hfuel : queue.length + weight seen ≤ fuel)
    (hgoal : ∀ a ∈ seen, goal ∉ next a) (h : ¬ reachableFrom next goal fuel queue seen) :
    ∀ a ∈ bfs next fuel queue seen, goal ∉ next a := by
  induction fuel generalizing queue seen with
  | zero => exact hgoal
  | succ fuel ih =>
    cases queue with
    | nil => exact hgoal
    | cons current queue =>
      rw [length_cons] at hfuel
      unfold reachableFrom at h
      unfold bfs
      split_ifs at h ⊢ with hseen hfound
      · exact ih queue seen (by omega) hgoal h
      · exact absurd rfl h
      · have hpaid := hweight seen current hseen
        have hpushed : ((next current).filter (· ∉ seen ++ [current])).length ≤
            (next current).length := length_filter_le _ _
        refine ih _ _ (by rw [length_append]; omega) (fun a ha ↦ ?_) h
        rcases mem_append.mp ha with hold | hcurrent
        · exact hgoal a hold
        · rw [mem_singleton.mp hcurrent]
          exact hfound

/-- The goal is found exactly when it is reached from the start along at least one edge. -/
theorem reachableFrom_iff
    (hweight : ∀ seen current, current ∉ seen →
      weight (seen ++ [current]) + (next current).length ≤ weight seen)
    {start : String} (hfuel : 1 + weight [] ≤ fuel) :
    reachableFrom next goal fuel [start] [] ↔ TransGen (fun a b ↦ b ∈ next a) start goal := by
  constructor
  · intro h
    obtain ⟨root, hroot, hpath⟩ := transGen_of_reachableFrom fuel [start] [] h
    rwa [mem_singleton.mp hroot] at hpath
  · intro hpath
    by_contra h
    obtain ⟨last, hprefix, hlast⟩ := TransGen.tail'_iff.mp hpath
    refine not_mem_of_reachableFrom hweight fuel [start] [] (by simpa using hfuel) (by simp) h last
      ?_ hlast
    exact (mem_bfs_iff hweight (by simpa using hfuel)).mpr ⟨start, by simp, hprefix⟩

end Search

/-! ### Paths along edges -/

section Paths

variable {nodeIds : List String} {edges : List GraphEdge}

def unseenCount (edges : List GraphEdge) (seen : List String) : ℕ :=
  (edges.filter fun edge ↦ edge.source ∉ seen).length

theorem unseenCount_nil (edges : List GraphEdge) : unseenCount edges [] = edges.length := by
  simp [unseenCount]

/-- The unseen edges pay for the pushes of a search. -/
theorem unseenCount_append (edges : List GraphEdge)
    (hnext : ∀ nodeId, (next nodeId).length ≤
      (edges.filter fun edge ↦ edge.source = nodeId).length)
    (seen : List String) (current : String) (hcurrent : current ∉ seen) :
    unseenCount edges (seen ++ [current]) + (next current).length ≤ unseenCount edges seen := by
  refine (Nat.add_le_add_left (hnext current) _).trans ?_
  clear hnext
  unfold unseenCount
  induction edges with
  | nil => exact le_rfl
  | cons edge rest ih =>
    by_cases hsource : edge.source = current
    · simp [hsource, hcurrent] at ih ⊢
      omega
    · by_cases hseen : edge.source ∈ seen
      · simp [hsource, hseen] at ih ⊢
        omega
      · simp [hsource, hseen] at ih ⊢
        omega

theorem length_adjacency_le (nodeIds : List String) (edges : List GraphEdge) (nodeId : String) :
    (adjacency nodeIds edges nodeId).length ≤
      (edges.filter fun edge ↦ edge.source = nodeId).length := by
  unfold adjacency
  rw [length_map]
  exact (monotone_filter_right _ fun edge h ↦ by simp at h ⊢; exact h.1).length_le

/-- One edge from `a` to `b`. -/
def EdgeBetween (edges : List GraphEdge) (a b : String) : Prop :=
  ∃ edge ∈ edges, edge.source = a ∧ edge.target = b

/-- Assumes: the edges connect declared nodes. -/
theorem mem_adjacency_iff
    (hedges : ∀ edge ∈ edges, edge.source ∈ nodeIds ∧ edge.target ∈ nodeIds) :
    b ∈ adjacency nodeIds edges a ↔ EdgeBetween edges a b := by
  unfold adjacency EdgeBetween
  simp only [mem_map, mem_filter, decide_eq_true_eq]
  constructor
  · rintro ⟨edge, ⟨hedge, hsource, -⟩, htarget⟩
    exact ⟨edge, hedge, hsource, htarget⟩
  · rintro ⟨edge, hedge, hsource, htarget⟩
    exact ⟨edge, ⟨hedge, hsource, hedges edge hedge⟩, htarget⟩

/-- `_reachable` decides the paths between two nodes. -/
theorem reachable_iff (edges : List GraphEdge) (start goal : String) :
    reachable edges start goal ↔ ReflTransGen (EdgeBetween edges) start goal := by
  have hsame : (fun a b : String ↦
      b ∈ (edges.filter fun edge ↦ edge.source = a).map target) = EdgeBetween edges := by
    funext a b
    simp [EdgeBetween, and_assoc]
  have hfuel : 1 + unseenCount edges [] ≤ edges.length + 2 := by
    rw [unseenCount_nil]
    omega
  have hsearch : reachableFrom
      (fun nodeId ↦ (edges.filter fun edge ↦ edge.source = nodeId).map target) goal
      (edges.length + 2) [start] [] ↔ TransGen (EdgeBetween edges) start goal := by
    rw [← hsame]
    exact reachableFrom_iff (unseenCount_append edges fun nodeId ↦ (length_map _).le) hfuel
  unfold reachable
  simp only [decide_eq_true_eq]
  rw [hsearch, reflTransGen_iff_eq_or_transGen, eq_comm]

/-- `find_unreachable` reports nothing exactly when every node is reachable from a root. Assumes: the
edges connect declared nodes, and there is a node. -/
theorem findUnreachable_eq_nil_iff {roots : List String} (hnodes : nodeIds ≠ [])
    (hedges : ∀ edge ∈ edges, edge.source ∈ nodeIds ∧ edge.target ∈ nodeIds) :
    findUnreachable nodeIds edges roots = [] ↔
      ∀ nodeId ∈ nodeIds, ∃ root ∈ roots, ReflTransGen (EdgeBetween edges) root nodeId := by
  have hsame : (fun a b : String ↦ b ∈ adjacency nodeIds edges a) = EdgeBetween edges := by
    funext a b
    exact propext (mem_adjacency_iff hedges)
  unfold findUnreachable
  rw [if_neg (by simpa using hnodes)]
  by_cases hroots : roots = []
  · subst hroots
    obtain ⟨first, hfirst⟩ := exists_mem_of_ne_nil _ hnodes
    simp only [isEmpty_nil, if_true, cons_ne_nil, false_iff]
    exact fun h ↦ by simpa using h first hfirst
  · rw [if_neg (by simpa using hroots)]
    have hfuel : (roots.insertionSort (· ≤ ·)).length + unseenCount edges [] ≤
        roots.length + edges.length + 1 := by
      rw [unseenCount_nil, length_insertionSort]
      omega
    have hsearch : ∀ nodeId, nodeId ∈ bfs (adjacency nodeIds edges) (roots.length + edges.length + 1)
        (roots.insertionSort (· ≤ ·)) [] ↔ ∃ root ∈ roots.insertionSort (· ≤ ·),
          ReflTransGen (EdgeBetween edges) root nodeId := by
      intro nodeId
      rw [← hsame]
      exact mem_bfs_iff (unseenCount_append edges (length_adjacency_le nodeIds edges)) hfuel
    simp only [map_eq_nil_iff, filter_eq_nil_iff, mem_insertionSort,
      decide_eq_true_eq, not_not, hsearch]

/-- The depth-first search reports nothing in a graph without cycles. Assumes: every node on the stack
leads to the current one. -/
theorem dfs_errors_of_acyclic
    (hacyclic : ∀ nodeId, ¬ TransGen (fun a b ↦ b ∈ next a) nodeId nodeId) (fuel : ℕ)
    (stack : List String) (nodeId : String) (state : DfsState)
    (hstack : ∀ other ∈ stack, TransGen (fun a b ↦ b ∈ next a) other nodeId) :
    (dfs next fuel stack nodeId state).errors = state.errors := by
  induction fuel generalizing stack nodeId state with
  | zero => rfl
  | succ fuel ih =>
    unfold dfs
    split_ifs with hcycle
    · exact absurd (hstack nodeId hcycle) (hacyclic nodeId)
    · rfl
    · refine foldl_invariant (P := fun acc : DfsState ↦ acc.errors = state.errors) ?_ rfl
      intro acc successor hsuccessor hacc
      rw [ih (stack ++ [nodeId]) successor acc fun other hother ↦ ?_, hacc]
      rcases mem_append.mp hother with hold | hnew
      · exact (hstack other hold).tail hsuccessor
      · rw [mem_singleton.mp hnew]
        exact .single hsuccessor

/-- An edge raises the rank, and so does a path. -/
theorem rank_lt_of_transGen {rank : String → ℕ}
    (hrank : ∀ edge ∈ edges, rank edge.source < rank edge.target)
    (h : TransGen (EdgeBetween edges) a b) : rank a < rank b := by
  have hstep : ∀ a b, EdgeBetween edges a b → rank a < rank b := by
    rintro a b ⟨edge, hedge, rfl, rfl⟩
    exact hrank edge hedge
  induction h with
  | single h => exact hstep _ _ h
  | tail _ h ih => exact ih.trans (hstep _ _ h)

/-- `detect_cycles` reports nothing exactly when the graph has no cycle. Assumes: the edges connect
declared nodes. -/
theorem detectCycles_eq_nil_iff
    (hedges : ∀ edge ∈ edges, edge.source ∈ nodeIds ∧ edge.target ∈ nodeIds) :
    detectCycles nodeIds edges = [] ↔ ∀ nodeId, ¬ TransGen (EdgeBetween edges) nodeId nodeId := by
  constructor
  · intro hempty nodeId hcycle
    obtain ⟨rank, hrank⟩ := exists_rank_of_detectCycles hempty hedges
    exact lt_irrefl _ (rank_lt_of_transGen hrank hcycle)
  · intro hacyclic
    have hsame : (fun a b : String ↦ b ∈ adjacency nodeIds edges a) = EdgeBetween edges := by
      funext a b
      exact propext (mem_adjacency_iff hedges)
    unfold detectCycles searchCycles
    refine foldl_invariant (P := fun acc : DfsState ↦ acc.errors = []) (fun acc nodeId _ hacc ↦ ?_) rfl
    split_ifs
    · exact hacc
    · rw [dfs_errors_of_acyclic (by rwa [hsame]) _ [] nodeId acc (by simp)]
      exact hacc

end Paths

/-! ### The remaining structural checks -/

theorem findDuplicateNodeIds_eq_nil_iff {seen : List String} :
    findDuplicateNodeIds seen nodes = [] ↔
      (nodes.map GraphNode.id).Nodup ∧ ∀ node ∈ nodes, node.id ∉ seen := by
  refine ⟨nodup_of_findDuplicateNodeIds, ?_⟩
  induction nodes generalizing seen with
  | nil => exact fun _ ↦ rfl
  | cons node rest ih =>
    rintro ⟨hnodup, hfresh⟩
    rw [map_cons, nodup_cons] at hnodup
    unfold findDuplicateNodeIds
    rw [if_neg (hfresh node mem_cons_self)]
    refine ih ⟨hnodup.2, fun other hother hmem ↦ ?_⟩
    rcases mem_cons.mp hmem with heq | hseen
    · exact hnodup.1 (heq ▸ mem_map_of_mem hother)
    · exact hfresh other (mem_cons_of_mem _ hother) hseen

theorem validateEdges_eq_nil_iff {g : WorkflowGraph} {nodeIds : List String} :
    validateEdges g nodeIds = [] ↔ ∀ edge ∈ g.edges, edge.source ∈ nodeIds ∧ edge.target ∈ nodeIds ∧
      ¬ (edge.source ≠ "" ∧ edge.target ≠ "" ∧ edge.source = edge.target) := by
  unfold validateEdges
  rw [flatMap_eq_nil_iff]
  refine forall₂_congr fun edge _ ↦ ?_
  simp only [append_eq_nil_iff, ite_eq_right_iff, cons_ne_nil, imp_false, not_not,
    and_assoc]

theorem node_of_mem_resolveNodes {registry : WorkflowNodeRegistry}
    {entry : String × NodeImpl} (h : entry ∈ resolveNodes registry nodes) :
    ∃ node ∈ nodes, node.id = entry.1 ∧ registry.get node.type node.version = some entry.2 := by
  refine foldl_invariant (P := fun resolved : Resolved ↦ ∀ entry ∈ resolved, ∃ node ∈ nodes,
    node.id = entry.1 ∧ registry.get node.type node.version = some entry.2) ?_ (by simp) entry h
  intro resolved node hnode hresolved
  cases hget : registry.get node.type node.version with
  | none => exact hresolved
  | some impl =>
    intro entry hentry
    dsimp only [Resolved.assign] at hentry
    split_ifs at hentry
    · obtain ⟨old, hold, rfl⟩ := mem_map.mp hentry
      split_ifs
      · exact ⟨node, hnode, rfl, hget⟩
      · exact hresolved old hold
    · rcases mem_append.mp hentry with hold | hnew
      · exact hresolved entry hold
      · rw [mem_singleton.mp hnew]
        exact ⟨node, hnode, rfl, hget⟩

end Compiler

/-! ### Sound graphs -/

open Compiler

def IsTriggerNode (registry : WorkflowNodeRegistry) (g : WorkflowGraph) (nodeId : String) : Prop :=
  ∃ node ∈ g.nodes, node.id = nodeId ∧
    ∃ impl, registry.get node.type node.version = some impl ∧ isTrigger impl

structure StructurallySound (registry : WorkflowNodeRegistry) (g : WorkflowGraph) : Prop where
  nodup_ids : (g.nodes.map GraphNode.id).Nodup
  edges : ∀ edge ∈ g.edges, edge.source ∈ g.nodes.map GraphNode.id ∧
    edge.target ∈ g.nodes.map GraphNode.id ∧ edge.source ≠ edge.target
  acyclic : ∀ nodeId, ¬ g.Ancestor nodeId nodeId
  reached : ∀ nodeId ∈ g.nodes.map GraphNode.id, ∃ trigger, IsTriggerNode registry g trigger ∧
    (trigger = nodeId ∨ g.Ancestor trigger nodeId)
  roots : ∀ nodeId, nodeId ∈ g.rootNodeIds ↔ IsTriggerNode registry g nodeId
  approvals : ∀ publish ∈ g.nodes, publish.type = "publish" → ∀ approval ∈ g.nodes,
    approval.type = "approval" → ¬ g.Ancestor publish.id approval.id

/-- The structural checks report nothing; the two context flags are set so that nothing else is
checked with them. -/
structure StructuralChecks (registry : WorkflowNodeRegistry) (g : WorkflowGraph) : Prop where
  duplicates : findDuplicateNodeIds [] g.nodes = []
  edges : validateEdges g (g.nodes.map GraphNode.id) = []
  cycles : detectCycles (g.nodes.map GraphNode.id).dedup g.edges = []
  triggered : collectTriggerErrors (resolveNodes registry g.nodes) g.edges true = []
  unreachable : findUnreachable (g.nodes.map GraphNode.id).dedup g.edges
    (triggers (resolveNodes registry g.nodes)) = []
  approvals : validateApprovalPlacement (resolveNodes registry g.nodes) g.edges false = []

section Sound

variable {registry : WorkflowNodeRegistry} {g : WorkflowGraph}

/-- On a graph with unique ids the resolved triggers are the trigger nodes. -/
theorem mem_triggers_iff (hnodup : (g.nodes.map GraphNode.id).Nodup) :
    nodeId ∈ triggers (resolveNodes registry g.nodes) ↔ IsTriggerNode registry g nodeId := by
  unfold triggers
  simp only [mem_map, mem_filter]
  constructor
  · rintro ⟨entry, ⟨hentry, htrigger⟩, rfl⟩
    obtain ⟨node, hnode, hid, himpl⟩ := node_of_mem_resolveNodes hentry
    exact ⟨node, hnode, hid, entry.2, himpl, htrigger⟩
  · rintro ⟨node, hnode, rfl, impl, himpl, htrigger⟩
    exact ⟨(node.id, impl), ⟨mem_resolveNodes hnodup hnode himpl, htrigger⟩, rfl⟩

/-- `collect_trigger_errors` reports nothing, apart from a second trigger, exactly when there is a
trigger and no edge leads into one. -/
theorem collectTriggerErrors_eq_nil_iff {resolved : Resolved} {edges : List GraphEdge} :
    collectTriggerErrors resolved edges true = [] ↔
      triggers resolved ≠ [] ∧ ∀ nodeId ∈ triggers resolved, nodeId ∉ edges.map target := by
  unfold collectTriggerErrors triggers
  simp only [not_true_eq_false, and_false, if_false, append_eq_nil_iff, map_eq_nil_iff,
    filter_eq_nil_iff, decide_eq_true_eq, ite_eq_right_iff, cons_ne_nil, imp_false,
    List.isEmpty_iff, ne_eq]
  rw [and_comm]
  refine and_congr_right fun _ ↦ ⟨fun h nodeId hmem ↦ ?_, fun h entry hentry ↦ ?_⟩
  · obtain ⟨entry, hentry, rfl⟩ := mem_map.mp hmem
    exact h entry hentry
  · exact h entry.1 (mem_map_of_mem hentry)

/-- Assumes: ids are unique and every type is registered. -/
theorem validateApprovalPlacement_eq_nil_iff (hnodup : (g.nodes.map GraphNode.id).Nodup)
    (hregistered : ∀ node ∈ g.nodes, ∃ impl, registry.get node.type node.version = some impl) :
    validateApprovalPlacement (resolveNodes registry g.nodes) g.edges false = [] ↔
      ∀ publish ∈ g.nodes, publish.type = "publish" → ∀ approval ∈ g.nodes,
        approval.type = "approval" → ¬ g.Ancestor publish.id approval.id := by
  have hresolved : ∀ (type : String) (nodeId : String),
      nodeId ∈ ((resolveNodes registry g.nodes).filter fun entry ↦ entry.2.type = type).map Prod.fst ↔
        ∃ node ∈ g.nodes, node.id = nodeId ∧ node.type = type := by
    intro type nodeId
    simp only [mem_map, mem_filter, decide_eq_true_eq]
    constructor
    · rintro ⟨entry, ⟨hentry, htype⟩, rfl⟩
      obtain ⟨node, hnode, hid, himpl⟩ := node_of_mem_resolveNodes hentry
      exact ⟨node, hnode, hid, (type_of_registry_get himpl).symm.trans htype⟩
    · rintro ⟨node, hnode, rfl, rfl⟩
      obtain ⟨impl, himpl⟩ := hregistered node hnode
      exact ⟨(node.id, impl), ⟨mem_resolveNodes hnodup hnode himpl, type_of_registry_get himpl⟩, rfl⟩
  -- two nodes of different types have different ids
  have hdistinct : ∀ a ∈ g.nodes, ∀ b ∈ g.nodes, a.type ≠ b.type → a.id ≠ b.id :=
    fun a ha b hb htype hid ↦ htype (congrArg GraphNode.type (inj_on_of_nodup_map hnodup ha hb hid))
  unfold validateApprovalPlacement
  dsimp only
  simp only [flatMap_eq_nil_iff, Bool.false_eq_true, false_and, if_false, ite_eq_right_iff,
    cons_ne_nil, imp_false, hresolved, reachable_iff]
  constructor
  · intro h publish hpublish hpublishType approval happroval happrovalType hpath
    exact h publish.id ⟨publish, hpublish, rfl, hpublishType⟩ approval.id
      ⟨approval, happroval, rfl, happrovalType⟩ hpath.to_reflTransGen
  · rintro h _ ⟨publish, hpublish, rfl, hpublishType⟩ _ ⟨approval, happroval, rfl, happrovalType⟩ hpath
    rcases reflTransGen_iff_eq_or_transGen.mp hpath with heq | hstrict
    · refine hdistinct publish hpublish approval happroval ?_ heq.symm
      rw [hpublishType, happrovalType]
      decide
    · exact h publish hpublish hpublishType approval happroval happrovalType hstrict

/-- The structural checks pass exactly on the sound graphs that have a node. Assumes: every type is
registered. -/
theorem structuralChecks_iff
    (hregistered : ∀ node ∈ g.nodes, ∃ impl, registry.get node.type node.version = some impl) :
    StructuralChecks registry g ↔ StructurallySound registry g ∧ g.nodes ≠ [] := by
  have hids : g.nodes ≠ [] → (g.nodes.map GraphNode.id).dedup ≠ [] := by
    intro hnodes hempty
    obtain ⟨node, hnode⟩ := exists_mem_of_ne_nil _ hnodes
    have hmem : node.id ∈ (g.nodes.map GraphNode.id).dedup :=
      mem_dedup.mpr (mem_map_of_mem hnode)
    rw [hempty] at hmem
    simp at hmem
  have hroot : ∀ nodeId, nodeId ∈ g.rootNodeIds ↔
      nodeId ∈ g.nodes.map GraphNode.id ∧ nodeId ∉ g.edges.map target := by
    intro nodeId
    unfold WorkflowGraph.rootNodeIds
    rw [mem_filter, decide_eq_true_eq]
  constructor
  · intro h
    have hnodup := (findDuplicateNodeIds_eq_nil_iff.mp h.duplicates).1
    have hedges := validateEdges_eq_nil_iff.mp h.edges
    have hdeclared : ∀ edge ∈ g.edges, edge.source ∈ (g.nodes.map GraphNode.id).dedup ∧
        edge.target ∈ (g.nodes.map GraphNode.id).dedup := fun edge hedge ↦
      ⟨mem_dedup.mpr (hedges edge hedge).1, mem_dedup.mpr (hedges edge hedge).2.1⟩
    have hacyclic := (detectCycles_eq_nil_iff hdeclared).mp h.cycles
    obtain ⟨htriggers, hincoming⟩ := collectTriggerErrors_eq_nil_iff.mp h.triggered
    have hnodes : g.nodes ≠ [] := by
      obtain ⟨trigger, htrigger⟩ := exists_mem_of_ne_nil _ htriggers
      obtain ⟨node, hnode, -⟩ := (mem_triggers_iff hnodup).mp htrigger
      exact ne_nil_of_mem hnode
    have hreached : ∀ nodeId ∈ g.nodes.map GraphNode.id, ∃ trigger, IsTriggerNode registry g trigger ∧
        (trigger = nodeId ∨ g.Ancestor trigger nodeId) := by
      intro nodeId hnodeId
      obtain ⟨trigger, htrigger, hpath⟩ := (findUnreachable_eq_nil_iff (hids hnodes) hdeclared).mp
        h.unreachable nodeId (mem_dedup.mpr hnodeId)
      refine ⟨trigger, (mem_triggers_iff hnodup).mp htrigger, ?_⟩
      rcases reflTransGen_iff_eq_or_transGen.mp hpath with heq | hstrict
      · exact .inl heq.symm
      · exact .inr hstrict
    refine ⟨⟨hnodup, fun edge hedge ↦ ⟨(hedges edge hedge).1, (hedges edge hedge).2.1, fun hself ↦ ?_⟩,
      hacyclic, hreached, fun nodeId ↦ ⟨fun hmem ↦ ?_, fun htrigger ↦ ?_⟩, ?_⟩, hnodes⟩
    · exact hacyclic edge.source (.single ⟨edge, hedge, rfl, hself.symm⟩)
    · -- a root is reached from a trigger, and no edge leads into it
      obtain ⟨hnodeId, htargets⟩ := (hroot nodeId).mp hmem
      obtain ⟨trigger, htrigger, rfl | hpath⟩ := hreached nodeId hnodeId
      · exact htrigger
      · obtain ⟨last, -, edge, hedge, -, htarget⟩ := TransGen.tail'_iff.mp hpath
        exact absurd (htarget ▸ mem_map_of_mem hedge) htargets
    · obtain ⟨node, hnode, hid, -⟩ := id htrigger
      exact (hroot nodeId).mpr ⟨hid ▸ mem_map_of_mem hnode,
        hincoming nodeId ((mem_triggers_iff hnodup).mpr htrigger)⟩
    · exact (validateApprovalPlacement_eq_nil_iff hnodup hregistered).mp h.approvals
  · rintro ⟨h, hnodes⟩
    have hdeclared : ∀ edge ∈ g.edges, edge.source ∈ (g.nodes.map GraphNode.id).dedup ∧
        edge.target ∈ (g.nodes.map GraphNode.id).dedup := fun edge hedge ↦
      ⟨mem_dedup.mpr (h.edges edge hedge).1, mem_dedup.mpr (h.edges edge hedge).2.1⟩
    refine ⟨findDuplicateNodeIds_eq_nil_iff.mpr ⟨h.nodup_ids, fun _ _ ↦ not_mem_nil⟩,
      validateEdges_eq_nil_iff.mpr fun edge hedge ↦ ⟨(h.edges edge hedge).1, (h.edges edge hedge).2.1,
        fun hself ↦ (h.edges edge hedge).2.2 hself.2.2⟩,
      (detectCycles_eq_nil_iff hdeclared).mpr h.acyclic,
      collectTriggerErrors_eq_nil_iff.mpr ⟨fun hempty ↦ ?_, fun nodeId htrigger ↦ ?_⟩,
      (findUnreachable_eq_nil_iff (hids hnodes) hdeclared).mpr fun nodeId hnodeId ↦ ?_,
      (validateApprovalPlacement_eq_nil_iff h.nodup_ids hregistered).mpr h.approvals⟩
    · obtain ⟨node, hnode⟩ := exists_mem_of_ne_nil _ hnodes
      obtain ⟨trigger, htrigger, -⟩ := h.reached node.id (mem_map_of_mem hnode)
      have hmem := (mem_triggers_iff h.nodup_ids).mpr htrigger
      rw [hempty] at hmem
      simp at hmem
    · exact ((hroot nodeId).mp ((h.roots nodeId).mpr ((mem_triggers_iff h.nodup_ids).mp htrigger))).2
    · obtain ⟨trigger, htrigger, hpath⟩ := h.reached nodeId (mem_dedup.mp hnodeId)
      refine ⟨trigger, (mem_triggers_iff h.nodup_ids).mpr htrigger, ?_⟩
      rcases hpath with rfl | hstrict
      · exact .refl
      · exact hstrict.to_reflTransGen

theorem structuralChecks_of_graphValid {availableTags : CompileContext → List String}
    {context : CompileContext} (h : graphValid registry availableTags g context) :
    StructuralChecks registry g := by
  have hclean : validateGraph registry availableTags g context = [] := by
    simpa [graphValid] using h
  simp only [validateGraph, append_eq_nil_iff] at hclean
  obtain ⟨⟨⟨⟨⟨⟨⟨⟨⟨⟨⟨⟨hduplicate, hedges⟩, hresolution⟩, hcycles⟩, htriggers⟩, hunreachable⟩, -⟩, -⟩,
    happrovals⟩, -⟩, -⟩, -⟩, -⟩ := hclean
  refine ⟨hduplicate, hedges, hcycles, ?_, hunreachable, ?_⟩
  · unfold collectTriggerErrors at htriggers ⊢
    dsimp only at htriggers ⊢
    rw [append_eq_nil_iff] at htriggers ⊢
    refine ⟨htriggers.1, ?_⟩
    have hsome := htriggers.2
    by_cases hempty : ((resolveNodes registry g.nodes).filter fun entry ↦ isTrigger entry.2).isEmpty
    · rw [if_pos hempty] at hsome
      simp at hsome
    · rw [if_neg hempty, if_neg (by simp)]
  · unfold validateApprovalPlacement at happrovals ⊢
    dsimp only at happrovals ⊢
    simp only [flatMap_eq_nil_iff] at happrovals ⊢
    intro publishId hpublish approvalId happroval
    have hpair := happrovals publishId hpublish approvalId happroval
    by_cases hreachable : reachable g.edges publishId approvalId
    · rw [if_pos hreachable] at hpair
      simp at hpair
    · rw [if_neg hreachable, if_neg (by simp)]

end Sound

/-- A valid graph is structurally sound; a graph that is not is invalid. -/
theorem graphValid_sound (registry : WorkflowNodeRegistry)
    (availableTags : CompileContext → List String) (g : WorkflowGraph) (context : CompileContext) :
    (graphValid registry availableTags g context = true → StructurallySound registry g) ∧
      (¬ StructurallySound registry g → graphValid registry availableTags g context = false) := by
  have hsound : graphValid registry availableTags g context = true → StructurallySound registry g := by
    intro h
    have hvalid := validGraph_of_graphValid h
    exact ((structuralChecks_iff hvalid.registered).mp (structuralChecks_of_graphValid h)).1
  refine ⟨hsound, fun hunsound ↦ ?_⟩
  rw [← Bool.not_eq_true]
  exact fun h ↦ hunsound (hsound h)

end ContentGenerator.Workflows

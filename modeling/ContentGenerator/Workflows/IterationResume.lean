import Mathlib.Data.List.DropRight
import ContentGenerator.Workflows.FirstResume
import ContentGenerator.Workflows.IterationReady
import ContentGenerator.Workflows.Snapshot

/-!
# Resumed iterations

An iteration row that pauses and is resumed, against the same row finished at once with the same
output. `execute_ready_node` hands the row on to the iteration rows of the successors and stores the
output under the key of the iteration; `resume_waiting_node` unlocks the successors and stores the
output under the id of the node, where the next resumed iteration overwrites it.

`resumes_like_success_iff` says when the two come to the same: the node has no successors, and what is
stored under its id is not the output of another resumed iteration. A successor all of whose other
predecessors are left alone by the hand-off collects the paused output in place of the final one
(`outputs_differ`).
-/

namespace ContentGenerator.Workflows

open Lib Relation List Option NodeTable WorkflowGraph Op
open JsonObject (get_set_of_ne get_set_self)
open ReflTransGen (invariant)

variable {decision : JsonObject} {nodeId rawOutcome : String} {row : NodeRun} {token : ℕ}

variable {h : HandOff} {id : RowId} {s : String} {st : EngineState}

/-! ### Collected outputs -/

theorem length_flatMap_le {α β : Type*} {f g : α → List β} {l : List α}
    (hle : ∀ x ∈ l, (f x).length ≤ (g x).length) :
    (l.flatMap f).length ≤ (l.flatMap g).length := by
  induction l with
  | nil => exact le_rfl
  | cons x rest ih =>
    rw [flatMap_cons, flatMap_cons, length_append, length_append]
    exact Nat.add_le_add (hle x mem_cons_self)
      (ih fun y hy ↦ hle y (mem_cons_of_mem _ hy))

/-- A concatenation determines its parts when none of them is longer than its counterpart. -/
theorem flatMap_parts {α β : Type*} {f g : α → List β} {l : List α}
    (hle : ∀ x ∈ l, (f x).length ≤ (g x).length) (h : l.flatMap f = l.flatMap g) :
    ∀ x ∈ l, f x = g x := by
  induction l with
  | nil => simp
  | cons x rest ih =>
    have htail : ∀ y ∈ rest, (f y).length ≤ (g y).length := fun y hy ↦
      hle y (mem_cons_of_mem _ hy)
    rw [flatMap_cons, flatMap_cons] at h
    have htotal := congrArg length h
    rw [length_append, length_append] at htotal
    have hhead := hle x mem_cons_self
    have hrest := length_flatMap_le htail
    obtain ⟨hx, hxs⟩ := append_inj h (by omega)
    intro y hy
    rcases mem_cons.mp hy with rfl | hy
    · exact hx
    · exact ih htail hxs y hy

section Collect

variable {nodeOutputs nodeOutputs' : JsonObject} {t t' : NodeTable} {nodeId : String}

/-- What `collect_upstream_outputs` reads of a row. -/
def outputColumn (entry : RowId × NodeRun) : RowId × JsonObject := (entry.1, entry.2.outputJson)

/-- The rows of a node are determined by the lookups. -/
theorem rowsOf_outputColumn
    (h : ∀ id : RowId, id.nodeId = nodeId →
      (t'.find id).map NodeRun.outputJson = (t.find id).map NodeRun.outputJson) :
    (t'.rowsOf nodeId).map outputColumn = (t.rowsOf nodeId).map outputColumn := by
  have hmem : ∀ (table : NodeTable) (id : RowId) (output : JsonObject),
      (id, output) ∈ (table.rowsOf nodeId).map outputColumn ↔
        id.nodeId = nodeId ∧ (table.find id).map NodeRun.outputJson = some output := by
    intro table id output
    simp only [List.mem_map, outputColumn, Prod.mk.injEq, map_eq_some_iff]
    constructor
    · rintro ⟨entry, hentry, rfl, rfl⟩
      obtain ⟨hfind, hnode⟩ := mem_rowsOf.mp hentry
      exact ⟨hnode, entry.2, hfind, rfl⟩
    · rintro ⟨hnode, row, hfind, rfl⟩
      exact ⟨(id, row), mem_rowsOf.mpr ⟨hfind, hnode⟩, rfl, rfl⟩
  have hnodup : ∀ table : NodeTable, ((table.rowsOf nodeId).map outputColumn).Nodup := by
    intro table
    refine List.Nodup.of_map Prod.fst ?_
    rw [List.map_map]
    have hperm : (table.rowsOf nodeId).Perm
        (table.entries.filter fun entry ↦ entry.1.nodeId = nodeId) := perm_insertionSort _ _
    exact (hperm.map Prod.fst).nodup_iff.mpr
      (table.nodupKeys.sublist (filter_sublist.map Prod.fst))
  have hsorted : ∀ table : NodeTable, ((table.rowsOf nodeId).map outputColumn).Pairwise
      fun a b ↦ a.1.iterationKey ≤ b.1.iterationKey := by
    intro table
    rw [pairwise_map]
    exact pairwise_insertionSort (fun a b : RowId × NodeRun ↦
      a.1.iterationKey ≤ b.1.iterationKey) _
  refine List.Perm.eq_of_pairwise ?_ (hsorted t') (hsorted t)
    ((perm_ext_iff_of_nodup (hnodup t') (hnodup t)).mpr ?_)
  · rintro ⟨id, output⟩ ⟨id', output'⟩ hleft hright hle hge
    obtain ⟨hnode, hfind⟩ := (hmem t' id output).mp hleft
    obtain ⟨hnode', hfind'⟩ := (hmem t id' output').mp hright
    obtain ⟨n, k⟩ := id
    obtain ⟨n', k'⟩ := id'
    obtain rfl : n = nodeId := hnode
    obtain rfl : n' = n := hnode'
    obtain rfl : k = k' := String.le_antisymm hle hge
    rw [h _ rfl, hfind'] at hfind
    rw [Option.some.inj hfind]
  · rintro ⟨id, output⟩
    rw [hmem, hmem]
    exact and_congr_right fun hnode ↦ by rw [h id hnode]

theorem iterations_outputColumn
    (h : ∀ id : RowId, id.nodeId = nodeId →
      (t'.find id).map NodeRun.outputJson = (t.find id).map NodeRun.outputJson) :
    (t'.iterations nodeId).map outputColumn = (t.iterations nodeId).map outputColumn := by
  have hfilter : ∀ (p : RowId → Bool), ((t'.rowsOf nodeId).filter fun entry ↦ p entry.1).map
      outputColumn = ((t.rowsOf nodeId).filter fun entry ↦ p entry.1).map outputColumn := by
    intro p
    have hpush : ∀ rows : List (RowId × NodeRun), (rows.filter fun entry ↦ p entry.1).map
        outputColumn = (rows.map outputColumn).filter fun column ↦ p column.1 := by
      intro rows
      rw [List.filter_map]
      rfl
    rw [hpush, hpush, rowsOf_outputColumn h]
  have hreal := hfilter fun id ↦ decide (id.iterationKey ≠ "")
  have hplain := hfilter fun id ↦ decide (id.iterationKey = "")
  have hempty : ((t'.rowsOf nodeId).filter fun entry ↦ entry.1.iterationKey ≠ "").isEmpty =
      ((t.rowsOf nodeId).filter fun entry ↦ entry.1.iterationKey ≠ "").isEmpty := by
    rw [← isEmpty_map (f := outputColumn), hreal, isEmpty_map]
  unfold iterations
  dsimp only
  rw [hempty]
  split_ifs
  · exact hplain
  · exact hreal

def columnOutput (nodeOutputs : JsonObject) (column : RowId × JsonObject) : Option JsonObject :=
  match nodeOutputs.get (outputStorageKey column.1.nodeId column.1.iterationKey) with
  | some (.obj stored) => some stored
  | _ => if column.2.isEmpty then none else some column.2

theorem upstreamOutputsOf_eq (nodeOutputs : JsonObject) (t : NodeTable) (nodeId : String) :
    upstreamOutputsOf nodeOutputs t nodeId =
      if 1 < ((t.iterations nodeId).map outputColumn).length ∨
          (((t.iterations nodeId).map outputColumn).head?.any fun column ↦
            column.1.iterationKey ≠ "") then
        ((t.iterations nodeId).map outputColumn).flatMap fun column ↦
          (columnOutput nodeOutputs column).toList
      else
        match nodeOutputs.get nodeId with
        | some (.obj raw) => [raw]
        | _ => [] := by
  have hmapped : (t.iterations nodeId).filterMap (iterationOutput nodeOutputs) =
      ((t.iterations nodeId).map outputColumn).flatMap fun column ↦
        (columnOutput nodeOutputs column).toList := by
    rw [← filterMap_eq_flatMap_toList, filterMap_map]
    rfl
  unfold upstreamOutputsOf
  dsimp only
  rw [hmapped, length_map, head?_map, Option.any_map]
  rfl

/-- The outputs collected from one predecessor, when the rows read alike and `nodeOutputs'` has an
object under every key `nodeOutputs` has one under: at least as many, and the same ones only when each
iteration contributes the same. -/
theorem upstreamOutputsOf_le
    (hrows : (t'.iterations nodeId).map outputColumn = (t.iterations nodeId).map outputColumn)
    (hstored : ∀ key stored, nodeOutputs.get key = some (.obj stored) →
      ∃ stored', nodeOutputs'.get key = some (.obj stored')) :
    (upstreamOutputsOf nodeOutputs t nodeId).length ≤
        (upstreamOutputsOf nodeOutputs' t' nodeId).length ∧
      (upstreamOutputsOf nodeOutputs t nodeId = upstreamOutputsOf nodeOutputs' t' nodeId →
        ∀ entry ∈ t.iterations nodeId, entry.1.iterationKey ≠ "" →
          columnOutput nodeOutputs (outputColumn entry) =
            columnOutput nodeOutputs' (outputColumn entry)) := by
  have hcolumn : ∀ column ∈ (t.iterations nodeId).map outputColumn,
      (columnOutput nodeOutputs column).toList.length ≤
        (columnOutput nodeOutputs' column).toList.length := by
    intro column _
    have hsome : (columnOutput nodeOutputs column).isSome →
        (columnOutput nodeOutputs' column).isSome := by
      intro hleft
      unfold columnOutput at hleft ⊢
      split at hleft
      · rename_i stored hget
        obtain ⟨stored', hget'⟩ := hstored _ stored hget
        rw [hget']
        rfl
      · split_ifs at hleft with hempty
        · simp at hleft
        · rw [if_neg hempty]
          split <;> rfl
    cases hleft : columnOutput nodeOutputs column with
    | none => exact Nat.zero_le _
    | some output =>
      rw [hleft] at hsome
      obtain ⟨output', hright⟩ := isSome_iff_exists.mp (hsome rfl)
      rw [hright]
      exact le_rfl
  rw [upstreamOutputsOf_eq, upstreamOutputsOf_eq, hrows]
  split_ifs with hreal
  · constructor
    · exact length_flatMap_le hcolumn
    · intro hsame entry hentry _
      have hpart := flatMap_parts hcolumn hsame (outputColumn entry)
        (List.mem_map_of_mem (f := outputColumn) hentry)
      revert hpart
      cases columnOutput nodeOutputs (outputColumn entry) <;>
        cases columnOutput nodeOutputs' (outputColumn entry) <;> simp
  · constructor
    · split
      · rename_i raw hget
        obtain ⟨raw', hget'⟩ := hstored _ raw hget
        rw [hget']
        exact le_rfl
      · exact Nat.zero_le _
    · intro _ entry hentry hkey
      -- an iteration row is never the single row without a key
      refine absurd ?_ hreal
      by_cases hmany : 1 < ((t.iterations nodeId).map outputColumn).length
      · exact .inl hmany
      · refine .inr ?_
        rw [length_map] at hmany
        cases hlist : t.iterations nodeId with
        | nil =>
          rw [hlist] at hentry
          simp at hentry
        | cons first rest =>
          rw [hlist] at hentry hmany
          obtain rfl : rest = [] := by
            rw [← length_eq_zero_iff]
            rw [length_cons] at hmany
            omega
          rw [mem_singleton.mp hentry] at hkey
          simpa [outputColumn] using hkey

end Collect

/-! ### Hand-offs leave outputs alone -/

section Outputs

variable {g : WorkflowGraph} {t t' : NodeTable}

/-- A rewrite of one row that keeps its output. -/
theorem find_modify_outputJson (t : NodeTable) (id : RowId) (f : NodeRun → NodeRun)
    (hf : ∀ row, (f row).outputJson = row.outputJson) (other : RowId) :
    ((t.modify id f).find other).map NodeRun.outputJson =
      (t.find other).map NodeRun.outputJson := by
  rw [KeyedTable.find_modify]
  split_ifs
  · rw [Option.map_map]
    exact Option.map_congr fun row _ ↦ hf row
  · rfl

theorem Promotes.outputJson (h : Promotes g t t') (id : RowId) :
    (t'.find id).map NodeRun.outputJson = (t.find id).map NodeRun.outputJson := by
  cases h with
  | intro nodeId current =>
    refine find_modify_outputJson t current _ ?_ id
    exact fun _ ↦ rfl

theorem HandOff.outputJson (env : EngineEnv) (now : Time) (h : HandOff)
    (hother : ∀ edge ∈ env.graph.successors h.finish.id.nodeId, edge.target ≠ id.nodeId) :
    ((h.apply env now).find id).map NodeRun.outputJson =
      (h.nodes.find id).map NodeRun.outputJson := by
  cases hkeys : h.spawnKeys env with
  | none =>
    refine invariant (P := fun t : NodeTable ↦
      (t.find id).map NodeRun.outputJson = (h.nodes.find id).map NodeRun.outputJson) ?_
      (h.apply_unlocks hkeys) rfl
    intro t t' hinv hstep
    cases hstep with
    | promote hpromotes => rw [hpromotes.outputJson, hinv]
    | skipTarget moment _ current =>
      exact (find_modify_outputJson t current (NodeRun.skip moment) (fun _ ↦ rfl) id).trans hinv
    | skipJoin moment _ current =>
      exact (find_modify_outputJson t current (NodeRun.skip moment) (fun _ ↦ rfl) id).trans hinv
  | some keys =>
    refine invariant (P := fun t : NodeTable ↦
      (t.find id).map NodeRun.outputJson = (h.nodes.find id).map NodeRun.outputJson) ?_
      (h.apply_spawns hkeys) rfl
    intro t t' hinv hstep
    cases hstep with
    | promote hpromotes => rw [hpromotes.outputJson, hinv]
    | spawn edge node hedge hnode _ hspawns =>
      have hne : id.nodeId ≠ node.id := by
        rw [id_of_node? hnode]
        exact (hother edge hedge).symm
      rw [hspawns.other id hne, hinv]

theorem exists_first_successor (hacyclic : ∃ rank : String → ℕ, ∀ edge ∈ g.edges,
      rank edge.source < rank edge.target) (hne : g.successors nodeId ≠ []) :
    ∃ edge ∈ g.successors nodeId, ∀ pred ∈ g.predecessors edge.target,
      ∀ other ∈ g.successors nodeId, other.target ≠ pred.source := by
  obtain ⟨rank, hrank⟩ := hacyclic
  obtain ⟨edge, hedge, hleast⟩ := (measure fun edge : GraphEdge ↦ rank edge.target).wf.has_min
    { edge | edge ∈ g.successors nodeId } (exists_mem_of_ne_nil _ hne)
  refine ⟨edge, hedge, fun pred hpred other hother hsame ↦ ?_⟩
  rw [mem_predecessors] at hpred
  have hlower := hrank pred hpred.1
  rw [hpred.2, ← hsame] at hlower
  exact hleast other hother hlower

end Outputs

/-! ### Keys that are not blank -/

/-- The text begins with a character that is not white space. -/
def StartsVisible (s : String) : Prop := ∃ c rest, s.toList = c :: rest ∧ ¬ pySpace c

theorem StartsVisible.pyStrip_ne (h : StartsVisible s) : pyStrip s ≠ "" := by
  obtain ⟨c, rest, hlist, hvisible⟩ := h
  intro hempty
  unfold pyStrip at hempty
  rw [← String.ofList_nil, String.ofList_inj, reverse_eq_nil_iff, hlist,
    dropWhile_cons_of_neg (by simpa using hvisible), dropWhile_eq_nil_iff] at hempty
  exact hvisible (hempty c (by simp))

theorem StartsVisible.ne_empty (h : StartsVisible s) : s ≠ "" := by
  rintro rfl
  obtain ⟨c, rest, hlist, -⟩ := h
  simp at hlist

theorem startsVisible_pyStrip (h : pyStrip s ≠ "") : StartsVisible (pyStrip s) := by
  have hlist : (pyStrip s).toList = (s.toList.dropWhile pySpace).rdropWhile pySpace := by
    rw [pyStrip, String.toList_ofList, rdropWhile]
  obtain ⟨c, rest, hcons⟩ : ∃ c rest, (pyStrip s).toList = c :: rest :=
    exists_cons_of_ne_nil (by simpa using h)
  obtain ⟨suffix, hsuffix⟩ := rdropWhile_prefix pySpace (s.toList.dropWhile pySpace)
  rw [← hlist, hcons, cons_append] at hsuffix
  refine ⟨c, rest, hcons, ?_⟩
  have hhead := head_dropWhile_not pySpace (by rw [← hsuffix]; simp)
  simpa [← hsuffix] using hhead

theorem StartsVisible.pyTake (h : StartsVisible s) {n : ℕ} (hn : 0 < n) :
    StartsVisible (pyTake n s) := by
  obtain ⟨c, rest, hlist, hvisible⟩ := h
  refine ⟨c, rest.take (n - 1), ?_, hvisible⟩
  obtain ⟨k, rfl⟩ : ∃ k, n = k + 1 := ⟨n - 1, by omega⟩
  rw [Lib.pyTake, String.toList_ofList, hlist, take_succ_cons]
  rfl

theorem StartsVisible.append (h : StartsVisible s) (tail : String) :
    StartsVisible (s ++ tail) := by
  obtain ⟨c, rest, hlist, hvisible⟩ := h
  exact ⟨c, rest ++ tail.toList, by rw [String.toList_append, hlist, cons_append], hvisible⟩

/-- The key of an item is not blank. -/
theorem startsVisible_iterationKeyForItem (render : Json → String) (item : Json) (index : ℕ) :
    StartsVisible (iterationKeyForItem render item index) := by
  rcases iterationKeyForItem_cases render item index with hindex | ⟨text, htext, hkey⟩
  · rw [hindex]
    exact StartsVisible.append ⟨'i', [], rfl, by decide⟩ _
  · rw [hkey]
    exact (startsVisible_pyStrip htext).pyTake (by decide)

theorem startsVisible_uniqueKeysFrom (render : Json → String) (index : ℕ) (seen : List String)
    (items : List Json) :
    ∀ keyed ∈ uniqueKeysFrom render index seen items, StartsVisible keyed.1 := by
  induction items generalizing index seen with
  | nil => simp [uniqueKeysFrom]
  | cons item rest ih =>
    intro keyed hmem
    rw [uniqueKeysFrom, mem_cons] at hmem
    rcases hmem with rfl | hrest
    · dsimp only
      have hbase := startsVisible_iterationKeyForItem render item index
      split_ifs with hfirst
      · exact hbase
      · exact ((hbase.append "-").append _).pyTake (by decide)
    · exact ih _ _ keyed hrest

def KeysVisible (t : NodeTable) : Prop :=
  ∀ id row, t.find id = some row → id.iterationKey ≠ "" → StartsVisible id.iterationKey

section Keys

variable {env : EngineEnv} {g : WorkflowGraph} {t t' : NodeTable}

theorem KeysVisible.mapValues (h : KeysVisible t) (f : RowId → NodeRun → NodeRun) :
    KeysVisible (t.mapValues f) := by
  intro id row hrow
  rw [KeyedTable.find_mapValues] at hrow
  obtain ⟨old, hold, -⟩ := map_eq_some_iff.mp hrow
  exact h id old hold

theorem KeysVisible.promotes (h : KeysVisible t) (hstep : Promotes g t t') : KeysVisible t' := by
  cases hstep with
  | intro => exact h.mapValues _

theorem KeysVisible.spawns {node : GraphNode} {keys : List String} (h : KeysVisible t)
    (hkeys : ∀ key ∈ keys, StartsVisible key) (hspawns : Spawns node keys t t') :
    KeysVisible t' := by
  rintro ⟨nodeId, key⟩ row hrow hne
  by_cases hnode : nodeId = node.id
  · subst hnode
    by_cases hmem : key ∈ keys
    · exact hkeys key hmem
    · rw [hspawns.unkeyed key hne hmem] at hrow
      exact h _ row hrow hne
  · rw [hspawns.other _ hnode] at hrow
    exact h _ row hrow hne

theorem KeysVisible.handOff (now : Time) {handOff : HandOff} (h : KeysVisible handOff.nodes)
    (hrow : handOff.nodes.find handOff.finish.id = some row) :
    KeysVisible (handOff.apply env now) := by
  cases hkeys : handOff.spawnKeys env with
  | none =>
    refine invariant (P := KeysVisible) ?_ (handOff.apply_unlocks hkeys) h
    intro t t' hinv hstep
    cases hstep with
    | promote hpromotes => exact hinv.promotes hpromotes
    | skipTarget | skipJoin => exact hinv.mapValues _
  | some keys =>
    have hvisible : ∀ key ∈ keys, StartsVisible key := by
      rcases handOff.apply_cases env now with ⟨-, -, hsome, -⟩ | ⟨-, hne, hsome, -⟩ | ⟨hnone, -⟩
      · obtain rfl := mem_unique hkeys hsome
        intro key hmem
        obtain ⟨keyed, hkeyed, rfl⟩ := List.mem_map.mp hmem
        exact startsVisible_uniqueKeysFrom env.render 0 [] _ keyed hkeyed
      · obtain rfl := mem_unique hkeys hsome
        intro key hmem
        rw [mem_singleton.mp hmem]
        exact h _ row hrow hne
      · exact absurd (hkeys.symm.trans hnone) (by simp)
    refine invariant (P := KeysVisible) ?_ (handOff.apply_spawns hkeys) h
    intro t t' hinv hstep
    cases hstep with
    | promote hpromotes => exact hinv.promotes hpromotes
    | spawn edge node _ _ _ hspawns => exact hinv.spawns hvisible hspawns

/-- The iteration keys of a reachable table are not blank. -/
theorem Reachable.keysVisible {allowed : Time → Op → EngineState → Prop}
    (hst : Reachable env allowed st) : KeysVisible st.nodes := by
  refine hst.rows_invariant ?_ ?_ ?_ ?_
  · intro id row hrow hne
    rw [find_startTable, if_neg hne] at hrow
    simp at hrow
  · intro t t' hinv hstep
    cases hstep with
    | promote hpromotes => exact hinv.promotes hpromotes
    | write f _ => exact hinv.mapValues f
  · intro now op st h row row' _ _ hoff hinv
    have hnodes : KeysVisible h.nodes := by
      rw [hoff.nodes]
      exact hinv.mapValues _
    have hrow : h.nodes.find h.finish.id = some row' := by
      rw [hoff.nodes]
      exact find_put_self _ _ hoff.find
    exact hnodes.handOff now hrow
  · intro now nodeId st t t' _ _ hinv _ hresets
    refine invariant (P := KeysVisible) ?_ hresets hinv
    intro t t' hinv hstep
    cases hstep with
    | intro => exact hinv.mapValues _

/-- After any operations every node has its placeholder, and every row is one of a node of the graph, of its
type, under a key that is empty or not blank. -/
theorem rows_of_graph (env : EngineEnv) (now : Time) (mode : StartMode) (payload snapshot : JsonObject)
    (calls : List (Time × Op)) : let st := env.play calls (startRun env now mode payload snapshot)
    (∀ nodeId, (env.graph.node? nodeId).isSome → (st.nodes.find ⟨nodeId, ""⟩).isSome) ∧
      ∀ id row, st.nodes.find id = some row →
        (∃ node, env.graph.node? id.nodeId = some node ∧ row.nodeType = node.type) ∧
          (id.iterationKey ≠ "" → StartsVisible id.iterationKey) := by
  have hst := reachable_play now mode payload snapshot (permits_anyOp env calls _)
  have h := hst.wellFormed
  exact ⟨h.placeholder, fun id row hrow ↦ ⟨h.nodeType id row hrow, hst.keysVisible id row hrow⟩⟩

end Keys

/-! ### What a resume writes -/

section Resume

variable {env : EngineEnv} {now : Time}

theorem resumedState_nodeOutputs (id : RowId) (row : NodeRun) (outcome : String)
    (decision : JsonObject) (advances : Bool) (waits : List Wait) (st : EngineState) :
    nodeOutputsOf (resumedState env now id row outcome decision advances waits st).run.contextSnapshot =
      (nodeOutputsOf st.run.contextSnapshot).set id.nodeId
        (.obj (resumedOutput row outcome decision
          (continuesAfterTimeout env.render outcome decision))) := by
  have hdecided : ∀ output succeeds, (decideRow env now id row outcome output succeeds
      st).run.contextSnapshot = st.run.contextSnapshot := by
    intro output succeeds
    unfold decideRow
    cases succeeds <;> rfl
  have hsnapshot : (resumedState env now id row outcome decision advances waits
      st).run.contextSnapshot = st.run.contextSnapshot.set "node_outputs"
        (.obj ((nodeOutputsOf st.run.contextSnapshot).set id.nodeId
          (.obj (resumedOutput row outcome decision
            (continuesAfterTimeout env.render outcome decision))))) := by
    unfold resumedState completeResume
    dsimp only
    split_ifs
    · rw [contextSnapshot_advance, contextSnapshot_finalize, hdecided]
      rfl
    · rw [contextSnapshot_finalize, hdecided]
      rfl
  rw [hsnapshot, nodeOutputsOf, get_set_self]
  rfl

theorem get_resumedOutput_decision (row : NodeRun) (outcome : String) (decision : JsonObject)
    (continues : Bool) :
    (resumedOutput row outcome decision continues).get "decision" =
      some (.str outcome) := by
  have hne : "decision" ≠ "status" := by decide
  unfold resumedOutput
  dsimp only
  split_ifs
  · rw [get_set_of_ne _ _ hne, get_set_of_ne _ _ hne, get_set_self]
  · rw [get_set_of_ne _ _ hne, get_set_self]

/-- A successful call of `resume_waiting_node`. -/
theorem tokenHandOff_resumes
    (advances : Bool)
    (hop : tokenHandOff env now token rawOutcome decision st = some h) :
    ∃ row waits st', h.finish.output = resumedOutput row (pyLower (pyStrip rawOutcome)) decision
        (continuesAfterTimeout env.render (pyLower (pyStrip rawOutcome)) decision) ∧
      resumeWaitingNode env now token rawOutcome decision advances st = .ok st' ∧
      st' = resumedState env now h.finish.id row (pyLower (pyStrip rawOutcome)) decision advances
        waits st := by
  unfold tokenHandOff at hop
  dsimp only at hop
  split at hop
  · simp at hop
  · rename_i entry hentry
    split_ifs at hop with hwaiting
    have hrow := find_of_byResumeToken hentry
    have hcall : resumeWaitingNode env now token rawOutcome decision advances st =
        resumeRow env now token (pyLower (pyStrip rawOutcome)) decision advances entry.1 entry.2 st :=
      resumeWaitingNode_of_waiting hwaiting.1 hentry hwaiting.2
    unfold resumeHandOff at hop
    dsimp only at hop
    cases hmarked : markResumed now token (pyLower (pyStrip rawOutcome)) decision entry.2 st.waits with
    | error exc =>
      rw [hmarked] at hop
      simp at hop
    | ok waits =>
      rw [hmarked] at hop
      dsimp only at hop
      split_ifs at hop
      cases hop
      have hresumed : resumeRow env now token (pyLower (pyStrip rawOutcome)) decision advances
          entry.1 entry.2 st = .ok (resumedState env now entry.1 entry.2
            (pyLower (pyStrip rawOutcome)) decision advances waits st) := by
        rw [resumeRow_eq hrow, hmarked]
        rfl
      refine ⟨entry.2, waits, _, ?_, hcall.trans hresumed, ?_⟩
      · dsimp only
      · rfl

/-- What a successful resume leaves behind: the output is stored under the id of the node, and it
carries the decision. -/
structure ResumeWrites (st : EngineState) (finish : Finish) (st' : EngineState) : Prop where
  nodeOutputs : nodeOutputsOf st'.run.contextSnapshot =
    (nodeOutputsOf st.run.contextSnapshot).set finish.id.nodeId (.obj finish.output)
  decision : (finish.output.get "decision").isSome

theorem resumeWrites_of_tokenHandOff
    {advances : Bool} {st' : EngineState}
    (hop : tokenHandOff env now token rawOutcome decision st = some h)
    (happly : resumeWaitingNode env now token rawOutcome decision advances st = .ok st') :
    ResumeWrites st h.finish st' := by
  obtain ⟨row, waits, resumed, houtput, hcall, hstate⟩ := tokenHandOff_resumes advances hop
  obtain rfl : resumed = st' := by
    rw [hcall, Except.ok.injEq] at happly
    exact happly
  refine ⟨?_, ?_⟩
  · rw [hstate, resumedState_nodeOutputs, houtput]
  · rw [houtput, get_resumedOutput_decision]
    rfl

/-- The operations that resume a row, by its token or by the event it waits for. -/
theorem Op.resumeWrites {op : Op}
    (hop : op.handOff env now st = some h) (hresume : h.nodeType = none) :
    ResumeWrites st h.finish (op.run env now st) := by
  obtain ⟨st', happly⟩ := apply_of_handOff hop
  rw [run, happly]
  cases op with
  | execute args token worker draw =>
    -- an execution hands off with the type of its node
    have heffect := executeClaimedNodeRun_effect happly
    rw [hop] at heffect
    generalize hoff : some h = off at heffect
    cases heffect with
    | aborted | rejected | missing => simp at hoff
    | ran row begun row' graphNode prepared settled hran =>
      obtain ⟨done, _ | finish⟩ := settled
      · exact absurd hoff (by simp [settledHandOff])
      · rw [Option.some.inj hoff] at hresume
        simp at hresume
  | resume token outcome decision advances =>
    rw [apply] at happly
    rw [Op.handOff] at hop
    exact resumeWrites_of_tokenHandOff hop happly
  | resumeRun eventKey decision advances =>
    rw [apply, Workflows.resumeRun] at happly
    rw [Op.handOff] at hop
    cases hresolved : resolveWaitByEventKey now eventKey decision st.waits with
    | error exc =>
      rw [hresolved] at hop
      simp at hop
    | ok resolved =>
      rw [hresolved] at hop happly
      obtain ⟨_ | token, waits⟩ := resolved
      · simp at hop
      · -- resolving the wait touches neither the rows nor the snapshot
        obtain ⟨houtputs, hdecision⟩ := resumeWrites_of_tokenHandOff hop happly
        exact ⟨houtputs, hdecision⟩
  | _ => exact absurd hop (by simp [Op.handOff])

end Resume

/-! ### What a pause leaves in the snapshot -/

/-- The snapshot holds an output without a decision under the key of the row. -/
def HoldsPause (st : EngineState) (id : RowId) : Prop :=
  ∃ stored, JsonObject.get (nodeOutputsOf st.run.contextSnapshot)
      (outputStorageKey id.nodeId id.iterationKey) = some (.obj stored) ∧
    JsonObject.get stored "decision" = none

/-! ### The property and its condition -/

/-- `execute_ready_node` from where the output of a node that succeeded has been validated. -/
def succeedReadyNode (env : EngineEnv) (now : Time) (graphNode : GraphNode) (id : RowId)
    (row : NodeRun) (output : JsonObject) (before : Executed) : Executed :=
  handOn env now graphNode.type
    (recordOutcome env now 0 id row {} before
      (.result { status := .succeeded, output := output } output))

/-- The node of the row that is resumed succeeds at once in the state instead. -/
def succeedAtOnce (env : EngineEnv) (now : Time) (st : EngineState) (h : HandOff) (graphNode : GraphNode)
    (row : NodeRun) : Executed :=
  succeedReadyNode env now graphNode h.finish.id row h.finish.output
    { state := st, nodeOutputs := nodeOutputsOf st.run.contextSnapshot }

/-- The row is created or made `READY`. -/
def CreatedOrReady (t t' : NodeTable) (id : RowId) : Prop :=
  (t.find id = none ∧ (t'.find id).isSome) ∨ BecomesReady t t' id

def outputsFor (g : WorkflowGraph) (edge : GraphEdge) (nodeOutputs : JsonObject) (t : NodeTable) :
    List JsonObject :=
  collectUpstreamOutputs ((g.predecessors edge.target).map GraphEdge.source) nodeOutputs t

/-- Another iteration of the node of `id` that has been resumed with success: its output carries the
decision. -/
structure ResumedBeside (t : NodeTable) (id other : RowId) (row : NodeRun) : Prop where
  node : other.nodeId = id.nodeId
  key : other.iterationKey ≠ ""
  ne : other ≠ id
  find : t.find other = some row
  status : row.status = .succeeded
  decision : (row.outputJson.get "decision").isSome

/-- What `node_outputs` holds under the id of the node. -/
def storedOutput (st : EngineState) (nodeId : String) : Option Json :=
  (nodeOutputsOf st.run.contextSnapshot).get nodeId

/-- A resume comes to the same as an execution that succeeds at once: the same rows are created or made
`READY`, every successor collects the same outputs, and the output of no other resumed iteration of the
node is overwritten. -/
structure ResumesLikeSuccess (env : EngineEnv) (now : Time) (st resumed : EngineState) (h : HandOff)
    (executed : Executed) : Prop where
  rows : ∀ id, CreatedOrReady st.nodes (h.apply env now) id ↔
    CreatedOrReady st.nodes executed.state.nodes id
  outputs : ∀ edge ∈ env.graph.successors h.finish.id.nodeId,
    outputsFor env.graph edge (nodeOutputsOf resumed.run.contextSnapshot) (h.apply env now) =
      outputsFor env.graph edge executed.nodeOutputs executed.state.nodes
  kept : ∀ other row, ResumedBeside st.nodes h.finish.id other row →
    storedOutput st h.finish.id.nodeId = some (.obj row.outputJson) →
      storedOutput resumed h.finish.id.nodeId = some (.obj row.outputJson)

/-- The node of the row has no successors, and `node_outputs` holds the output of no other resumed
iteration under its id. -/
def LastAlone (g : WorkflowGraph) (st : EngineState) (id : RowId) : Prop :=
  g.successors id.nodeId = [] ∧ ∀ other row, ResumedBeside st.nodes id other row →
    storedOutput st id.nodeId ≠ some (.obj row.outputJson)

section Property

variable {env : EngineEnv} {now : Time}

/-- Finishing a row creates none and makes none `READY`. -/
theorem not_createdOrReady_put {t : NodeTable}
    (hstatus : row.status ≠ .ready) (other : RowId) : ¬ CreatedOrReady t (t.put id row) other := by
  rintro (⟨hnone, hsome⟩ | ⟨⟨row', hrow', hready⟩, hbefore⟩)
  · rw [find_put, hnone] at hsome
    simp at hsome
  · rw [mem_def, find_put] at hrow'
    split_ifs at hrow' with hid
    · obtain ⟨old, -, rfl⟩ := map_eq_some_iff.mp hrow'
      exact hstatus hready
    · exact hbefore row' hrow' hready

theorem outputStorageKey_ne {key : String} (h : StartsVisible key) :
    outputStorageKey nodeId key ≠ nodeId := by
  intro hsame
  rw [outputStorageKey, if_pos h.pyStrip_ne] at hsame
  change nodeId ++ "#" ++ pyStrip key = nodeId at hsame
  have hlength := congrArg (fun s : String ↦ s.toList.length) hsame
  simp at hlength

def succeedHandOff (now : Time) (graphNode : GraphNode) (id : RowId) (row : NodeRun)
    (output : JsonObject) (t : NodeTable) : HandOff where
  finish := { id := id, status := .succeeded, output := output }
  nodeType := some graphNode.type
  nodes := t.put id (row.finish now .succeeded output)

theorem succeedReadyNode_nodes (graphNode : GraphNode) (id : RowId) (row : NodeRun)
    (output : JsonObject) (before : Executed) :
    (succeedReadyNode env now graphNode id row output before).state.nodes =
      (succeedHandOff now graphNode id row output before.state.nodes).apply env now := rfl

variable {allowed : Time → Op → EngineState → Prop} {st : EngineState} {op : Op} {h : HandOff}
  {row : NodeRun}

/-- When the node has no successors and no other output is lost, a resume is as good as an immediate
success. -/
theorem resumesLikeSuccess_of_lastAlone (hop : op.handOff env now st = some h)
    (hlast : LastAlone env.graph st h.finish.id)
    (graphNode : GraphNode) (row : NodeRun) :
    ResumesLikeSuccess env now st (op.run env now st) h (succeedAtOnce env now st h graphNode row) := by
  obtain ⟨hsuccessors, halone⟩ := hlast
  obtain ⟨old, row', hoff⟩ := handsOff hop
  have hready : row'.status ≠ .ready := by
    intro hstatus
    have hsuccess := hoff.success
    rw [← hoff.status, hstatus] at hsuccess
    exact absurd hsuccess (by decide)
  refine ⟨fun id ↦ ?_, fun edge hedge ↦ ?_, fun other row hbeside hstored ↦
    absurd hstored (halone other row hbeside)⟩
  · have hexecuted : (succeedHandOff now graphNode h.finish.id row h.finish.output st.nodes).apply
        env now = st.nodes.put h.finish.id (row.finish now .succeeded h.finish.output) :=
      HandOff.apply_of_no_successors _ hsuccessors
    rw [h.apply_of_no_successors hsuccessors, hoff.nodes, succeedAtOnce, succeedReadyNode_nodes, hexecuted]
    exact iff_of_false (not_createdOrReady_put hready id)
      (not_createdOrReady_put NodeStatus.noConfusion id)
  · rw [hsuccessors] at hedge
    simp at hedge

/-- A successor none of whose predecessors is handed anything collects the paused output after a
resume, and the final one after an immediate success. -/
theorem outputs_differ (hacyclic : ∃ rank : String → ℕ, ∀ edge ∈ env.graph.edges,
      rank edge.source < rank edge.target) (hop : op.handOff env now st = some h)
    (hresume : h.nodeType = none) (hvisible : StartsVisible h.finish.id.iterationKey)
    (hpause : HoldsPause st h.finish.id) (hsuccessors : env.graph.successors h.finish.id.nodeId ≠ [])
    (graphNode : GraphNode) (row : NodeRun) :
    ∃ edge ∈ env.graph.successors h.finish.id.nodeId,
      outputsFor env.graph edge (nodeOutputsOf (op.run env now st).run.contextSnapshot)
          (h.apply env now) ≠
        outputsFor env.graph edge
          (storeOutput (nodeOutputsOf st.run.contextSnapshot) h.finish.id h.finish.output)
          ((succeedHandOff now graphNode h.finish.id row h.finish.output st.nodes).apply env now) := by
  obtain ⟨edge, hedge, hfirst⟩ := exists_first_successor hacyclic hsuccessors
  refine ⟨edge, hedge, fun hsame ↦ ?_⟩
  obtain ⟨old, row', hoff⟩ := handsOff hop
  have hwrites := Op.resumeWrites hop hresume
  obtain ⟨stored, hstored, hplain⟩ := hpause
  rw [hwrites.nodeOutputs] at hsame
  have hne : outputStorageKey h.finish.id.nodeId h.finish.id.iterationKey ≠ h.finish.id.nodeId :=
    outputStorageKey_ne hvisible
  -- the two hand-offs leave the rows of the predecessors with the same outputs
  have hrows : ∀ pred ∈ env.graph.predecessors edge.target,
      ((h.apply env now).iterations pred.source).map outputColumn =
        (((succeedHandOff now graphNode h.finish.id row h.finish.output st.nodes).apply env
          now).iterations pred.source).map outputColumn := by
    intro pred hpred
    refine iterations_outputColumn fun id hid ↦ ?_
    rw [h.outputJson env now fun other hother ↦ hid ▸ hfirst pred hpred other hother,
      HandOff.outputJson env now _ fun other hother ↦ hid ▸ hfirst pred hpred other hother,
      hoff.nodes, succeedHandOff, find_put, find_put]
    split_ifs
    · rw [Option.map_map, Option.map_map]
      exact Option.map_congr fun _ _ ↦ hoff.output
    · rfl
  have hobjects : ∀ key value,
      JsonObject.get (storeOutput (nodeOutputsOf st.run.contextSnapshot) h.finish.id
        h.finish.output) key = some (.obj value) →
      ∃ value', JsonObject.get (JsonObject.set (nodeOutputsOf st.run.contextSnapshot)
        h.finish.id.nodeId (.obj h.finish.output)) key = some (.obj value') := by
    intro key value hvalue
    by_cases hnode : key = h.finish.id.nodeId
    · exact ⟨h.finish.output, by rw [hnode, get_set_self]⟩
    · rw [get_set_of_ne _ _ hnode]
      rw [get_storeOutput] at hvalue
      split_ifs at hvalue with hkey
      · exact ⟨stored, by rw [hkey, hstored]⟩
      · exact ⟨value, hvalue⟩
  have hparts := flatMap_parts (fun source hsource ↦ by
    obtain ⟨pred, hpred, rfl⟩ := List.mem_map.mp hsource
    exact (upstreamOutputsOf_le (hrows pred hpred) hobjects).1) hsame.symm
  rw [mem_successors] at hedge
  have hpred : edge ∈ env.graph.predecessors edge.target :=
    mem_predecessors.mpr ⟨hedge.1, rfl⟩
  have hentry : (h.finish.id, row.finish now .succeeded h.finish.output) ∈
      ((succeedHandOff now graphNode h.finish.id row h.finish.output st.nodes).apply env
        now).iterations edge.source := by
    have hfind := HandOff.find_apply env now
      (succeedHandOff now graphNode h.finish.id row h.finish.output st.nodes)
      (find_put_self _ _ hoff.find)
      (show ¬ NodeStatus.succeeded.isSkippable by decide)
    refine mem_iterations.mpr ⟨mem_rowsOf.mpr ⟨hfind, hedge.2.symm⟩, ?_⟩
    exact fun hempty ↦ absurd hempty hvisible.ne_empty
  have hcolumn := (upstreamOutputsOf_le (hrows edge hpred) hobjects).2
    (hparts edge.source (List.mem_map_of_mem hpred)) _ hentry hvisible.ne_empty
  -- the entry of the row itself is the final output on one side and the paused one on the other
  simp only [columnOutput, outputColumn, get_storeOutput, if_true, get_set_of_ne _ _ hne,
    hstored, Option.some.injEq] at hcolumn
  have hdecision := hwrites.decision
  rw [hcolumn, hplain] at hdecision
  simp at hdecision

/-- When a resume of an iteration comes to the same as an immediate success: when its node has no
successors and `node_outputs` holds the output of no other resumed iteration under its id. The condition
is enough in every reachable state. It is needed while the snapshot holds the output the row has paused
with, as it does after the pause, and the outputs of the other resumed iterations differ from that of the
row. -/
theorem resumes_like_success_iff (hst : Reachable env allowed st)
    {availableTags : CompileContext → List String} {context : CompileContext}
    (hvalid : graphValid env.registry availableTags env.graph context)
    (hop : op.handOff env now st = some h) (hresume : h.nodeType = none)
    (hkey : h.finish.id.iterationKey ≠ "") (hrow : st.nodes.find h.finish.id = some row)
    {graphNode : GraphNode} (_hnode : env.graph.node? h.finish.id.nodeId = some graphNode) :
    (LastAlone env.graph st h.finish.id →
        ResumesLikeSuccess env now st (op.run env now st) h (succeedAtOnce env now st h graphNode row)) ∧
      (HoldsPause st h.finish.id →
        (∀ other row, ResumedBeside st.nodes h.finish.id other row →
          row.outputJson ≠ h.finish.output) →
        ResumesLikeSuccess env now st (op.run env now st) h (succeedAtOnce env now st h graphNode row) →
        LastAlone env.graph st h.finish.id) := by
  refine ⟨fun hlast ↦ resumesLikeSuccess_of_lastAlone hop hlast graphNode row,
    fun hpause hdistinct hlike ↦ ⟨?_, fun other current hbeside hstored ↦ ?_⟩⟩
  · by_contra hsuccessors
    obtain ⟨edge, hedge, hdiffers⟩ := outputs_differ (validGraph_of_graphValid hvalid).acyclic hop
      hresume (hst.keysVisible _ row hrow hkey) hpause hsuccessors graphNode row
    exact hdiffers (hlike.outputs edge hedge)
  · have hkept := hlike.kept other current hbeside hstored
    rw [storedOutput, (Op.resumeWrites hop hresume).nodeOutputs, get_set_self] at hkept
    have hsame : h.finish.output = current.outputJson := by simpa using hkept
    exact hdistinct other current hbeside hsame.symm

end Property

/-! ### A delay behind a fan-out -/

def iteratedDelayGraph : WorkflowGraph where
  nodes :=
    [{ id := "t", type := "manual_trigger" }, { id := "f", type := "fan_out" },
      { id := "d", type := "delay" }]
  edges := [{ source := "t", target := "f" }, { source := "f", target := "d" }]

def summarizedDelayGraph : WorkflowGraph where
  nodes := iteratedDelayGraph.nodes ++ [{ id := "s", type := "summarize" }]
  edges := iteratedDelayGraph.edges ++ [{ source := "d", target := "s" }]

/-- The run in which the delay of the one item waits under token 5. -/
def pausedIteration (graph : WorkflowGraph) : EngineState :=
  (catalogueEnv graph repairedGlobals).play
    [(1, execSucceeds "t" "" 0 [("payload", .obj []), ("trigger_type", .str "manual_trigger")]),
      (2, execSucceeds "f" "" 2
        [("items", .arr [.str "x"]), ("count", .int 1), ("mode", .str "generic")]),
      (3, execReturns "d" "x" 4
        { status := .waiting
          output := [("resume_at", .str "2026-01-01T00:00:00Z"), ("scheduled", .bool true),
            ("status", .str "pending")]
          waitingReason := some "delay_until" })]
    (startRun (catalogueEnv graph repairedGlobals) 0 .inline [] [])

/-- The delay of the item is over. -/
def wakeIteration : Op := .resume 5 "elapsed" [] true

/-- The waking delay of the item: its hand-off, its row and its node. -/
structure Waking (graph : WorkflowGraph) (h : HandOff) (row : NodeRun) (graphNode : GraphNode) : Prop where
  handOff : wakeIteration.handOff (catalogueEnv graph repairedGlobals) 4 (pausedIteration graph) = some h
  resumes : h.nodeType = none
  id : h.finish.id = ⟨"d", "x"⟩
  find : (pausedIteration graph).nodes.find ⟨"d", "x"⟩ = some row
  waiting : row.status = .waiting
  node : graph.node? "d" = some graphNode

def WakesLikeSuccess (graph : WorkflowGraph) (h : HandOff) (row : NodeRun) (graphNode : GraphNode) : Prop :=
  ResumesLikeSuccess (catalogueEnv graph repairedGlobals) 4 (pausedIteration graph)
    (wakeIteration.run (catalogueEnv graph repairedGlobals) 4 (pausedIteration graph)) h
    (succeedAtOnce (catalogueEnv graph repairedGlobals) 4 (pausedIteration graph) h graphNode row)

theorem pausedIteration_reachable (graph : WorkflowGraph) :
    Reachable (catalogueEnv graph repairedGlobals) anyOp (pausedIteration graph) :=
  reachable_play 0 .inline [] [] (permits_anyOp _ _ _)

/-- Nothing comes after the delay: its resume is as good as an immediate success. -/
theorem iteratedDelay_resumes_like_success :
    ∃ h row graphNode, Waking iteratedDelayGraph h row graphNode ∧
      WakesLikeSuccess iteratedDelayGraph h row graphNode := by
  have hvalid : graphValid (catalogueEnv iteratedDelayGraph repairedGlobals).registry (fun _ ↦ [])
    iteratedDelayGraph {} := by decide +kernel
  obtain ⟨h, row, graphNode, hwaking⟩ : ∃ h row graphNode, Waking iteratedDelayGraph h row graphNode :=
    ⟨_, _, _, rfl, rfl, rfl, rfl, rfl, rfl⟩
  have halone : ∀ entry ∈ (pausedIteration iteratedDelayGraph).nodes.entries, entry.1.nodeId = "d" →
      entry.1.iterationKey ≠ "" → entry.1 = ⟨"d", "x"⟩ := by decide +kernel
  refine ⟨h, row, graphNode, hwaking, (resumes_like_success_iff (pausedIteration_reachable _) hvalid hwaking.handOff
    hwaking.resumes (by rw [hwaking.id]; decide) (by rw [hwaking.id]; exact hwaking.find)
    (by rw [hwaking.id]; exact hwaking.node)).1 ⟨by rw [hwaking.id]; rfl, fun other row' hbeside ↦ ?_⟩⟩
  rw [hwaking.id] at hbeside
  exact absurd (halone _ ((KeyedTable.find_eq_some_iff _ _ _).mp hbeside.find) hbeside.node hbeside.key)
    hbeside.ne

/-- With a summary after it, the summary of a resumed delay collects the output of the pause: the wait
is still pending in it, and the decision is missing. -/
theorem resumed_delay_hands_on_pause :
    graphValid catalogue (fun _ ↦ []) summarizedDelayGraph {} ∧
      Reachable (catalogueEnv summarizedDelayGraph repairedGlobals) anyOp (pausedIteration summarizedDelayGraph) ∧
      ∃ h row graphNode, Waking summarizedDelayGraph h row graphNode ∧
        ¬ WakesLikeSuccess summarizedDelayGraph h row graphNode := by
  refine ⟨by decide +kernel, pausedIteration_reachable _, _, _, _, ⟨rfl, rfl, rfl, rfl, rfl, rfl⟩, fun hlike ↦ ?_⟩
  exact absurd (hlike.outputs { source := "d", target := "s" } (by decide)) (by decide +kernel)

end ContentGenerator.Workflows

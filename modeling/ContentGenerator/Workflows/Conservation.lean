import Mathlib.Data.List.FinRange
import ContentGenerator.Workflows.Inputs
import ContentGenerator.Workflows.OpSteps
import ContentGenerator.Workflows.ValidGraph

/-!
# Conservation of fan-out items

A successful fan-out should give every position of its item list a row of its own on the successor,
seeded with that item by this call (`ItemsConserved`). It does so exactly when no two positions end
up with one key and no row under one of the keys has been handed out before
(`itemsConserved_iff`): rows are addressed by node and key, and a row that exists and is not pending
is taken as it is.

Keys collide although repeated base keys get a suffix: the suffixed text may be the base key of another
item, or the cut to 128 characters may drop the suffix. `keyAt` is the key at a position.
-/

namespace ContentGenerator.Workflows

open Lib Relation List WorkflowGraph

variable {g : WorkflowGraph} {node : GraphNode} {out : GraphEdge} {registry : WorkflowNodeRegistry}
  {fanOutNodeId : String} {id : RowId} {item : Json} {t t' : NodeTable}

/-! ### Keys by position -/

/-- The base keys of the items from position `index` on. -/
def baseKeysFrom (render : Json → String) : ℕ → List Json → List String
  | _, [] => []
  | index, item :: rest =>
    iterationKeyForItem render item index :: baseKeysFrom render (index + 1) rest

/-- The key of an item whose base key has occurred `count` times before. -/
def suffixedKey (base : String) (count : ℕ) : String :=
  if count = 0 then base else pyTake 128 s!"{base}-{count + 1}"

/-- How often the base key at a position occurs before it. -/
def occurrence (bases : List String) (i : Fin bases.length) : ℕ :=
  (bases.take i).count (bases.get i)

def keyAt (bases : List String) (i : Fin bases.length) : String :=
  suffixedKey (bases.get i) (occurrence bases i)

/-- No position that repeats a base key gets the key of another position. -/
def DistinctKeys (bases : List String) : Prop :=
  ∀ i j : Fin bases.length, occurrence bases i ≠ 0 → i ≠ j → keyAt bases i ≠ keyAt bases j

instance (bases : List String) : Decidable (DistinctKeys bases) :=
  inferInstanceAs (Decidable (∀ _ _, _))

/-- Two first occurrences never collide, so only repeats matter. -/
theorem keyAt_injective_iff (bases : List String) :
    Function.Injective (keyAt bases) ↔ DistinctKeys bases := by
  constructor
  · intro hinj i j _ hne heq
    exact hne (hinj heq)
  · intro hdistinct i j heq
    by_contra hne
    by_cases hi : occurrence bases i = 0
    · by_cases hj : occurrence bases j = 0
      · have hbase : bases.get i = bases.get j := by
          simpa [keyAt, suffixedKey, hi, hj] using heq
        -- the later of two equal base keys is a repeat
        have hrepeat : ∀ a b : Fin bases.length, a < b → bases.get a = bases.get b →
            occurrence bases b ≠ 0 := by
          intro a b hlt hsame
          have hmem : bases.get b ∈ bases.take b := by
            rw [← hsame, mem_take_iff_getElem]
            exact ⟨a, by omega, rfl⟩
          exact (count_pos_iff.mpr hmem).ne'
        rcases lt_or_gt_of_ne hne with hlt | hgt
        · exact hrepeat i j hlt hbase hj
        · exact hrepeat j i hgt hbase.symm hi
      · exact hdistinct j i hj (Ne.symm hne) heq.symm
    · exact hdistinct i j hi hne heq

theorem length_baseKeysFrom (render : Json → String) (index : ℕ) (items : List Json) :
    (baseKeysFrom render index items).length = items.length := by
  induction items generalizing index with
  | nil => rfl
  | cons item rest ih => simp [baseKeysFrom, ih]

/-- The loop of `unique_iteration_keys` position by position: the count of a base key is taken over
what was seen before the loop and the positions before this one. -/
theorem uniqueKeysFrom_getElem? (render : Json → String) (index : ℕ) (seen : List String)
    (items : List Json) (i : ℕ) (item : Json) (hitem : items[i]? = some item) :
    ∃ base, (baseKeysFrom render index items)[i]? = some base ∧
      (uniqueKeysFrom render index seen items)[i]? =
        some (suffixedKey base
          (seen.count base + ((baseKeysFrom render index items).take i).count base), item) := by
  induction items generalizing index seen i with
  | nil => simp at hitem
  | cons first rest ih =>
    cases i with
    | zero =>
      obtain rfl : first = item := by simpa using hitem
      refine ⟨iterationKeyForItem render first index, rfl, ?_⟩
      simp [uniqueKeysFrom, suffixedKey]
    | succ i =>
      obtain ⟨base, hbase, hkey⟩ := ih (index + 1) (iterationKeyForItem render first index :: seen) i
        (by simpa using hitem)
      refine ⟨base, by simpa [baseKeysFrom] using hbase, ?_⟩
      simp only [uniqueKeysFrom, baseKeysFrom, getElem?_cons_succ, take_succ_cons, hkey,
        count_cons]
      congr 3
      omega

theorem uniqueIterationKeys_eq_ofFn (render : Json → String) (items : List Json) :
    uniqueIterationKeys render items = ofFn fun i : Fin items.length ↦
      (keyAt (baseKeysFrom render 0 items) (i.cast (length_baseKeysFrom render 0 items).symm),
        items.get i) := by
  have hlength : (uniqueIterationKeys render items).length = items.length := by
    unfold uniqueIterationKeys
    suffices h : ∀ index seen, (uniqueKeysFrom render index seen items).length = items.length from
      h 0 []
    induction items with
    | nil => exact fun _ _ ↦ rfl
    | cons item rest ih => exact fun _ _ ↦ by simp [uniqueKeysFrom, ih]
  refine ext_getElem? fun i ↦ ?_
  by_cases hi : i < items.length
  · obtain ⟨base, hbase, hkey⟩ := uniqueKeysFrom_getElem? render 0 [] items i items[i]
      (getElem?_eq_getElem hi)
    have hbases : i < (baseKeysFrom render 0 items).length := by rwa [length_baseKeysFrom]
    rw [getElem?_eq_getElem hbases, Option.some_inj] at hbase
    rw [uniqueIterationKeys, hkey, List.getElem?_ofFn, dif_pos hi]
    simp [keyAt, occurrence, hbase]
  · rw [getElem?_eq_none (by omega), getElem?_eq_none (by simpa using hi)]

/-! ### The property -/

/-- The row was handed to an item by the call that took `t` to `t'`: it was absent or pending, and it
is `READY` with the seed of the item. -/
def SeededWith (t t' : NodeTable) (fanOutNodeId : String) (id : RowId) (item : Json) : Prop :=
  ∃ row', t'.find id = some row' ∧ row'.status = .ready ∧
    ((t.find id = none ∧
        row'.inputJson = seedIterationInputs item id.iterationKey fanOutNodeId) ∨
      ∃ row, t.find id = some row ∧ row.status = .pending ∧
        row'.inputJson = JsonObject.update row.inputJson
          (seedIterationInputs item id.iterationKey fanOutNodeId))

/-- The positions of an item list are represented by the rows of a target, one row each, and the
call handed out no other row of the target. -/
structure Represents (t t' : NodeTable) (fanOutNodeId target : String) (items : List Json)
    (row : Fin items.length → RowId) : Prop where
  injective : Function.Injective row
  nodeId : ∀ i, (row i).nodeId = target
  seeded : ∀ i, SeededWith t t' fanOutNodeId (row i) (items.get i)
  onto : ∀ id item, id.nodeId = target → SeededWith t t' fanOutNodeId id item → ∃ i, row i = id

/-- Every position of the item list has a row of its own on every successor of the fan-out. -/
def ItemsConserved (g : WorkflowGraph) (render : Json → String) (now : Time) (t : NodeTable)
    (fanOutNodeId : String) (output : JsonObject) : Prop :=
  ∀ edge ∈ g.successors fanOutNodeId, ∃ row,
    Represents t (materializeFanOutSuccess g render now t fanOutNodeId output).nodes fanOutNodeId
      edge.target (fanOutItems output) row

/-- The rows under the keys of the items have not been handed out. -/
def KeysFree (t : NodeTable) (target : String) (bases : List String) : Prop :=
  ∀ i, ∀ row ∈ t.find ⟨target, keyAt bases i⟩, row.status = .pending

instance (t : NodeTable) (target : String) (bases : List String) :
    Decidable (KeysFree t target bases) :=
  inferInstanceAs (Decidable (∀ _, ∀ row ∈ _, NodeRun.status row = .pending))

/-- Only the rows of the target matter. -/
theorem Represents.congr {t'' : NodeTable} {target : String} {items : List Json}
    {row : Fin items.length → RowId} (h : Represents t t' fanOutNodeId target items row)
    (hfind : ∀ id : RowId, id.nodeId = target → t'.find id = t''.find id) :
    Represents t t'' fanOutNodeId target items row := by
  have hseeded : ∀ id item, id.nodeId = target →
      (SeededWith t t' fanOutNodeId id item ↔ SeededWith t t'' fanOutNodeId id item) := by
    intro id item hid
    rw [SeededWith, SeededWith, hfind id hid]
  exact ⟨h.injective, h.nodeId, fun i ↦ (hseeded _ _ (h.nodeId i)).mp (h.seeded i),
    fun id item hid hs ↦ h.onto id item hid ((hseeded id item hid).mpr hs)⟩

/-! ### Rows that are handed out -/

theorem SeededWith.free
    (h : SeededWith t t' fanOutNodeId id item) {row : NodeRun} (hrow : t.find id = some row) :
    row.status = .pending := by
  obtain ⟨-, -, -, ⟨hnone, -⟩ | ⟨old, hold, hpending, -⟩⟩ := h
  · rw [hrow] at hnone
    simp at hnone
  · rw [hrow] at hold
    exact Option.some.inj hold ▸ hpending

theorem SeededWith.find_ne
    (h : SeededWith t t' fanOutNodeId id item) : t'.find id ≠ t.find id := by
  obtain ⟨row', hrow', hready, ⟨hnone, -⟩ | ⟨row, hrow, hpending, -⟩⟩ := h
  · rw [hrow', hnone]
    simp
  · rw [hrow', hrow]
    rintro heq
    rw [Option.some.inj heq, hpending] at hready
    exact absurd hready (by decide)

theorem Spawns.mem_of_seededWith {keys : List String}
    (h : Spawns node keys t t')
    (hid : id.nodeId = node.id) (hseeded : SeededWith t t' fanOutNodeId id item) :
    ∃ key ∈ keys, id = ⟨node.id, key⟩ := by
  obtain ⟨nodeId, key⟩ := id
  obtain rfl : nodeId = node.id := hid
  by_cases hkey : key = ""
  · subst hkey
    rcases h.placeholder with hsame | ⟨row, row', -, -, hrow', hsuperseded, -⟩
    · exact absurd hsame hseeded.find_ne
    · obtain ⟨row'', hrow'', hready, -⟩ := hseeded
      rw [hrow'] at hrow''
      simp only [NodeRun.isSuperseded, decide_eq_true_eq] at hsuperseded
      rw [← Option.some.inj hrow'', hsuperseded.1] at hready
      exact absurd hready (by decide)
  · by_cases hmem : key ∈ keys
    · exact ⟨key, hmem, rfl⟩
    · exact absurd (h.unkeyed key hkey hmem) hseeded.find_ne

theorem promoteTargets_find_of_ne (g : WorkflowGraph) (t : NodeTable) (edges : List GraphEdge)
    (h : ∀ edge ∈ edges, edge.target ≠ id.nodeId) :
    (promoteTargets g t edges).nodes.find id = t.find id := by
  refine foldl_invariant (P := fun acc : Unlocked ↦ acc.nodes.find id = t.find id) ?_ rfl
  intro acc edge hedge hacc
  unfold Unlocked.promote
  split
  · exact hacc
  · rename_i other hother
    obtain ⟨row, hget, -⟩ := promotable_eq_some hother
    have hne : id ≠ other := by
      rintro rfl
      exact h edge hedge (NodeTable.get_eq_some hget).2.symm
    rw [NodeTable.find_setStatus, if_neg hne, hacc]

/-- The table after the rows of the items have been handed out on a target. -/
def spawnedItems (now : Time) (node : GraphNode) (fanOutNodeId : String)
    (keyed : List (String × Json)) (t : NodeTable) : NodeTable :=
  (keyed.foldl (spawnItem node fanOutNodeId)
    { nodes := supersedePlaceholder t node.id fun row ↦
        { row.supersede now with errorJson := none } }).nodes

theorem spawns_spawnedItems (now : Time) (node : GraphNode) (fanOutNodeId : String)
    (render : Json → String) (items : List Json) (t : NodeTable) :
    Spawns node ((uniqueIterationKeys render items).map Prod.fst) t
      (spawnedItems now node fanOutNodeId (uniqueIterationKeys render items) t) :=
  spawns_spawnItems node fanOutNodeId _ (uniqueIterationKeys_ne_empty render _) { nodes := t } _
    (supersede_spec now)

/-- The rows of the successor after a fan-out: those of the items are handed out, and a promotion
behind the successor does not reach back. -/
theorem materializeFanOutSuccess_find
    (hvalid : ValidGraph registry g)
    (hout : g.successors fanOutNodeId = [out])
    (hnode : g.node? out.target = some node) (render : Json → String) (now : Time) (t : NodeTable)
    (output : JsonObject) (hid : id.nodeId = node.id) :
    (materializeFanOutSuccess g render now t fanOutNodeId output).nodes.find id =
      (spawnedItems now node fanOutNodeId (uniqueIterationKeys render (fanOutItems output)) t).find
        id := by
  have htarget := id_of_node? hnode
  unfold materializeFanOutSuccess materializeEdge spawnedItems
  rw [hout, foldl_cons, foldl_nil, hnode, htarget]
  dsimp only
  split_ifs with hempty
  · rw [List.isEmpty_iff.mp hempty, foldl_nil]
    refine promoteTargets_find_of_ne g (supersedePlaceholder t out.target _) _ fun edge hedge heq ↦ ?_
    obtain ⟨rank, hrank⟩ := hvalid.acyclic
    rw [mem_successors] at hedge
    have hlt := hrank edge hedge.1
    rw [hedge.2, heq, hid, htarget] at hlt
    exact lt_irrefl _ hlt
  · rfl

/-! ### When items are conserved -/

section Items

variable {render : Json → String} {items : List Json}

/-- The rows under the keys of the items, which the call may hand out. -/
def itemRow (node : GraphNode) (render : Json → String) (items : List Json)
    (i : Fin items.length) : RowId :=
  ⟨node.id, keyAt (baseKeysFrom render 0 items) (i.cast (length_baseKeysFrom render 0 items).symm)⟩

theorem itemRow_injective_iff :
    Function.Injective (itemRow node render items) ↔
      DistinctKeys (baseKeysFrom render 0 items) := by
  rw [← keyAt_injective_iff]
  constructor
  · intro hinj i j heq
    have hcast : i.cast (length_baseKeysFrom render 0 items) =
        j.cast (length_baseKeysFrom render 0 items) := hinj (by simpa [itemRow] using heq)
    simpa using hcast
  · intro hinj i j heq
    have hcast := hinj (congrArg RowId.iterationKey heq)
    simpa using hcast

theorem keys_eq_itemRow :
    (uniqueIterationKeys render items).map (fun pair ↦ (⟨node.id, pair.1⟩ : RowId)) =
      ofFn (itemRow node render items) := by
  rw [uniqueIterationKeys_eq_ofFn, map_ofFn]
  rfl

/-- A row that was handed out is the row of an item. -/
theorem Spawns.exists_itemRow
    (h : Spawns node ((uniqueIterationKeys render items).map Prod.fst) t t')
    (hid : id.nodeId = node.id) (hseeded : SeededWith t t' fanOutNodeId id item) :
    ∃ i, itemRow node render items i = id := by
  obtain ⟨key, hkey, rfl⟩ := h.mem_of_seededWith hid hseeded
  obtain ⟨pair, hpair, rfl⟩ := mem_map.mp hkey
  have hmem : (⟨node.id, pair.1⟩ : RowId) ∈ ofFn (itemRow node render items) := by
    rw [← keys_eq_itemRow]
    exact mem_map_of_mem hpair
  exact (mem_ofFn' _ _).mp hmem

/-- Positions that are all represented have distinct keys, under which nothing was handed out
before: as many rows are seeded as there are positions, and all of them are rows of items. -/
theorem Represents.distinctKeys
    (hspawns : Spawns node ((uniqueIterationKeys render items).map Prod.fst) t t')
    {row : Fin items.length → RowId}
    (h : Represents t t' fanOutNodeId node.id items row) :
    DistinctKeys (baseKeysFrom render 0 items) ∧
      KeysFree t node.id (baseKeysFrom render 0 items) := by
  have hsubset : ofFn row ⊆ ofFn (itemRow node render items) := by
    intro id hmem
    obtain ⟨i, rfl⟩ := (mem_ofFn' _ _).mp hmem
    exact (mem_ofFn' _ _).mpr (hspawns.exists_itemRow (h.nodeId i) (h.seeded i))
  have hperm : (ofFn row).Perm (ofFn (itemRow node render items)) :=
    (subperm_of_subset (nodup_ofFn.mpr h.injective) hsubset).perm_of_length_le (by simp)
  refine ⟨itemRow_injective_iff.mp (nodup_ofFn.mp
    (hperm.nodup_iff.mp (nodup_ofFn.mpr h.injective))), fun i current hcurrent ↦ ?_⟩
  have hmem : itemRow node render items (i.cast (length_baseKeysFrom render 0 items)) ∈
      ofFn row :=
    hperm.mem_iff.mpr ((mem_ofFn' _ _).mpr ⟨_, rfl⟩)
  obtain ⟨j, hj⟩ := (mem_ofFn' _ _).mp hmem
  refine (h.seeded j).free ?_
  rw [hj]
  simpa [itemRow] using hcurrent

/-- The loop over the items seeds the row of every position.
Assumes: the keys are distinct and nothing has been handed out under them. -/
theorem represents_itemRow (now : Time)
    (hdistinct : DistinctKeys (baseKeysFrom render 0 items))
    (hfree : KeysFree t node.id (baseKeysFrom render 0 items)) :
    Represents t (spawnedItems now node fanOutNodeId (uniqueIterationKeys render items) t)
      fanOutNodeId node.id items (itemRow node render items) := by
  have hspawns := spawns_spawnedItems now node fanOutNodeId render items t
  have hinj : Function.Injective (itemRow node render items) := itemRow_injective_iff.mpr hdistinct
  refine ⟨hinj, fun _ ↦ rfl, fun i ↦ ?_, fun id item hid ↦ hspawns.exists_itemRow hid⟩
  have hpair : ((itemRow node render items i).iterationKey, items.get i) ∈
      uniqueIterationKeys render items := by
    rw [uniqueIterationKeys_eq_ofFn]
    exact (mem_ofFn' _ _).mpr ⟨i, rfl⟩
  -- distinct keys: the first item with the key of the position is the item at the position
  have hfirst : ((uniqueIterationKeys render items).find? fun pair ↦
      itemRow node render items i = ⟨node.id, pair.1⟩) =
        some ((itemRow node render items i).iterationKey, items.get i) := by
    cases hfound : (uniqueIterationKeys render items).find? fun pair ↦
        itemRow node render items i = ⟨node.id, pair.1⟩ with
    | none => exact absurd (find?_eq_none.mp hfound _ hpair) (by simp [itemRow])
    | some pair =>
      have hmem := mem_of_find?_eq_some hfound
      have hkey := find?_some hfound
      rw [uniqueIterationKeys_eq_ofFn] at hmem
      obtain ⟨j, rfl⟩ := (mem_ofFn' _ _).mp hmem
      have hij : itemRow node render items i = itemRow node render items j := by
        simpa [itemRow] using hkey
      obtain rfl := hinj hij
      rfl
  have hne : itemRow node render items i ≠ ⟨node.id, ""⟩ := by
    intro heq
    exact uniqueIterationKeys_ne_empty render items _ hpair (congrArg RowId.iterationKey heq)
  have hrow : (spawnedItems now node fanOutNodeId (uniqueIterationKeys render items) t).find
      (itemRow node render items i) = some (NodeRun.seeded node
        (seedIterationInputs (items.get i) (itemRow node render items i).iterationKey fanOutNodeId)
        (t.find (itemRow node render items i))) := by
    rw [spawnedItems, find_spawnItems, hfirst]
    simp only [find_supersedePlaceholder, if_neg hne]
  refine ⟨_, hrow, ?_⟩
  cases hold : t.find (itemRow node render items i) with
  | none => exact ⟨rfl, .inl ⟨rfl, rfl⟩⟩
  | some old =>
    have hpending := hfree _ old hold
    rw [NodeRun.seeded, if_pos hpending]
    exact ⟨rfl, .inr ⟨old, rfl, hpending, rfl⟩⟩

end Items

/-- Conservation of items, with what the compiler promises about the graph. -/
theorem itemsConserved_of_successor
    (hvalid : ValidGraph registry g)
    (hout : g.successors fanOutNodeId = [out]) (render : Json → String) (now : Time)
    (t : NodeTable) (output : JsonObject) :
    ItemsConserved g render now t fanOutNodeId output ↔
      DistinctKeys (baseKeysFrom render 0 (fanOutItems output)) ∧
        KeysFree t out.target (baseKeysFrom render 0 (fanOutItems output)) := by
  obtain ⟨node, hnode⟩ : ∃ node, g.node? out.target = some node := by
    rw [← Option.isSome_iff_exists, node?_isSome_iff]
    refine hvalid.target_mem out ?_
    exact (mem_successors.mp (by rw [hout]; exact mem_singleton.mpr rfl)).1
  have htarget : node.id = out.target := id_of_node? hnode
  have hfind : ∀ id : RowId, id.nodeId = node.id → _ := fun id hid ↦
    materializeFanOutSuccess_find hvalid hout hnode render now t output hid
  unfold ItemsConserved
  simp only [hout, mem_singleton, forall_eq, ← htarget]
  constructor
  · rintro ⟨row, hrow⟩
    exact (hrow.congr hfind).distinctKeys (spawns_spawnedItems _ _ _ _ _ _)
  · rintro ⟨hdistinct, hfree⟩
    exact ⟨_, (represents_itemRow now hdistinct hfree).congr fun id hid ↦ (hfind id hid).symm⟩

/-- A fan-out of a valid graph conserves its items exactly when their keys are distinct and nothing
has been handed out under them.
Assumes: the graph passes the compiler, and the node is one of its fan-outs. -/
theorem itemsConserved_iff {registry : WorkflowNodeRegistry}
    {availableTags : CompileContext → List String} {g : WorkflowGraph} {context : CompileContext}
    (hvalid : graphValid registry availableTags g context) {node : GraphNode}
    (hnode : node ∈ g.nodes) (htype : node.type = "fan_out") (render : Json → String) (now : Time)
    (t : NodeTable) (output : JsonObject) :
    ItemsConserved g render now t node.id output ↔
      DistinctKeys (baseKeysFrom render 0 (fanOutItems output)) ∧
        ∀ edge ∈ g.successors node.id,
          KeysFree t edge.target (baseKeysFrom render 0 (fanOutItems output)) := by
  have hgraph := validGraph_of_graphValid hvalid
  obtain ⟨out, hout, -⟩ := hgraph.fanOut node hnode htype
  rw [itemsConserved_of_successor hgraph hout]
  simp only [hout, mem_singleton, forall_eq]

def fanOutGraph : WorkflowGraph where
  nodes :=
    [{ id := "t", type := "manual_trigger" }, { id := "f", type := "fan_out" },
      { id := "d", type := "delay" }]
  edges := [{ source := "t", target := "f" }, { source := "f", target := "d" }]

/-- The run in which the trigger has succeeded and the fan-out is claimed. -/
def fanOutClaimed : EngineState :=
  (execSucceeds "t" "" 0 [("payload", .obj []), ("trigger_type", .str "manual_trigger")]).run
    (catalogueEnv fanOutGraph repairedGlobals) 1
    (startRun (catalogueEnv fanOutGraph repairedGlobals) 0 .inline [] [])

def fanOutWith (items : List Json) : Op :=
  execSucceeds "f" "" 2
    [("items", .arr items), ("count", .int items.length), ("mode", .str "generic")]

/-- Two items with different keys get a row each. -/
theorem fanOut_conserves_two_items :
    ∃ h, (fanOutWith [.str "a", .str "b"]).handOff (catalogueEnv fanOutGraph repairedGlobals) 2
        fanOutClaimed = some h ∧
      ItemsConserved fanOutGraph (fun _ ↦ "") 2 h.nodes "f" h.finish.output :=
  ⟨_, rfl, (itemsConserved_iff
    (show graphValid catalogue (fun _ ↦ []) fanOutGraph {} by decide +kernel)
    (show ({ id := "f", type := "fan_out" } : GraphNode) ∈ fanOutGraph.nodes by simp [fanOutGraph])
    rfl _ _ _ _).mpr ⟨by decide +kernel, by decide +kernel⟩⟩

/-- Of the items `a`, `a`, `a-2` the last one gets no row: the second one has its key. -/
theorem fanOut_drops_suffixed_item :
    graphValid catalogue (fun _ ↦ []) fanOutGraph {} ∧
      ∃ h, (fanOutWith [.str "a", .str "a", .str "a-2"]).handOff
          (catalogueEnv fanOutGraph repairedGlobals) 2 fanOutClaimed = some h ∧
        h.finish.id = ⟨"f", ""⟩ ∧ h.finish.status = .succeeded ∧
        ¬ ItemsConserved fanOutGraph (fun _ ↦ "") 2 h.nodes "f" h.finish.output := by
  have hvalid : graphValid catalogue (fun _ ↦ []) fanOutGraph {} := by decide +kernel
  refine ⟨hvalid, _, rfl, rfl, rfl, fun hconserved ↦ ?_⟩
  have hdistinct := ((itemsConserved_of_successor (validGraph_of_graphValid hvalid) rfl _ _ _
    _).mp hconserved).1
  revert hdistinct
  decide +kernel

end ContentGenerator.Workflows

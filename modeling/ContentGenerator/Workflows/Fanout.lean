import ContentGenerator.Workflows.Unlock

/-!
# Fan-out iterations

`engine_fanout.py`: the iteration keys of the items of a fan-out, the rows a successful fan-out
spawns on its successor, and the rows an iteration spawns on the successors of its own node.

Both functions visit the out-edges of the finished node, and what they do to one target is the same
up to the seed of the row: the placeholder is superseded, an absent row is created `READY`, a pending
one is set `READY`, and any other row stays. `find_spawnItems` and `find_spawnDownstream` state this
row by row.
-/

namespace ContentGenerator.Workflows

open Lib List KeyedTable NodeTable

/-! ### Iteration keys -/

/-- `iteration_key_for_item`. The items come from a JSON column, so none is a `UUID` object;
`render` is `str` on floats and containers. -/
def iterationKeyForItem (render : Json → String) (item : Json) (index : ℕ) : String :=
  let ofText (value : Json) : Option String :=
    let text := pyStrip (value.text render)
    if text ≠ "" then some (pyTake 128 text) else none
  let ofField (fields : JsonObject) (field : String) : Option String :=
    match fields.get field with
    | none | some .null => none
    | some raw => ofText raw
  match item with
  | .obj fields =>
    (["key", "id", "platform", "slug"].findSome? (ofField fields)).getD s!"i{index}"
  | .str _ | .int _ | .bool _ => (ofText item).getD s!"i{index}"
  | _ => s!"i{index}"

/-- The loop of `unique_iteration_keys` from position `index`, with the base keys seen so far. -/
def uniqueKeysFrom (render : Json → String) : ℕ → List String → List Json → List (String × Json)
  | _, _, [] => []
  | index, seen, item :: rest =>
    let base := iterationKeyForItem render item index
    let count := seen.count base + 1
    let key := if count = 1 then base else pyTake 128 s!"{base}-{count}"
    (key, item) :: uniqueKeysFrom render (index + 1) (base :: seen) rest

def uniqueIterationKeys (render : Json → String) (items : List Json) : List (String × Json) :=
  uniqueKeysFrom render 0 [] items

def seedIterationInputs (item : Json) (key fanOutNodeId : String) : JsonObject :=
  let payload : JsonObject :=
    [("item", item), ("iteration_key", .str key), ("fan_out_node_id", .str fanOutNodeId)]
  match item with
  | .str text => payload.set "text" (.str text)
  | .obj fields =>
    fields.foldl (fun acc field ↦ JsonObject.setDefault acc field.1 field.2) payload
  | _ => payload

def fanOutItems (output : JsonObject) : List Json :=
  match output.get "items" with
  | some (.arr items) => items
  | _ => []

/-! ### Spawned rows -/

/-- `int(graph_node.version or 1)`. -/
def GraphNode.versionOrOne (node : GraphNode) : ℕ := if node.version = 0 then 1 else node.version

def GraphNode.iterationRow (node : GraphNode) (input : JsonObject) : NodeRun :=
  { nodeType := node.type, nodeVersion := node.versionOrOne, status := .ready, inputJson := input }

/-- A placeholder that iteration rows have replaced. -/
def NodeRun.supersede (now : Time) (row : NodeRun) : NodeRun :=
  { row with
    status := .skipped
    finishedAt := some now
    waitingReason := some "superseded_by_fan_out" }

/-- Rewrite the placeholder of `target` when no worker has begun it. -/
def supersedePlaceholder (t : NodeTable) (target : String) (f : NodeRun → NodeRun) : NodeTable :=
  t.modify ⟨target, ""⟩ fun row ↦ if row.status.isSkippable then f row else row

/-- A table with the rows a fan-out handed to its items. -/
structure Materialized where
  nodes : NodeTable
  created : List RowId := []

/-- The row of one item: reused when it exists, else created. -/
def spawnItem (node : GraphNode) (fanOutNodeId : String) (acc : Materialized)
    (keyed : String × Json) : Materialized :=
  let id : RowId := ⟨node.id, keyed.1⟩
  let seed := seedIterationInputs keyed.2 keyed.1 fanOutNodeId
  match acc.nodes.getIteration node.id keyed.1 with
  | some existing =>
    if existing.status = .pending then
      { nodes := acc.nodes.modify id fun row ↦
          { row with status := .ready, inputJson := row.inputJson.update seed }
        created := acc.created ++ [id] }
    else { acc with created := acc.created ++ [id] }
  | none =>
    { nodes := acc.nodes.insertNew id (node.iterationRow seed), created := acc.created ++ [id] }

def materializeEdge (g : WorkflowGraph) (now : Time) (fanOutNodeId : String)
    (keyed : List (String × Json)) (acc : Materialized) (edge : GraphEdge) : Materialized :=
  match g.node? edge.target with
  | none => acc
  | some node =>
    let nodes := supersedePlaceholder acc.nodes edge.target fun row ↦
      { row.supersede now with errorJson := none }
    if keyed.isEmpty then
      { acc with nodes := (promoteTargets g nodes (g.successors edge.target)).nodes }
    else keyed.foldl (spawnItem node fanOutNodeId) { acc with nodes := nodes }

def materializeFanOutSuccess (g : WorkflowGraph) (render : Json → String) (now : Time)
    (t : NodeTable) (fanOutNodeId : String) (output : JsonObject) : Materialized :=
  (g.successors fanOutNodeId).foldl
    (materializeEdge g now fanOutNodeId (uniqueIterationKeys render (fanOutItems output)))
    { nodes := t }

/-- Whether `ensure_downstream_iteration` treats a target as a merge. -/
def isMergeTarget (t : NodeTable) (node : GraphNode) : Bool :=
  node.type = "merge" ∨ ((t.get node.id).map fun primary ↦ primary.2.nodeType) = some "merge"

/-- The iteration row of a target that is not a merge. -/
def spawnDownstream (now : Time) (node : GraphNode) (iterationKey : String) (output : JsonObject)
    (acc : Unlocked) : Unlocked :=
  let id : RowId := ⟨node.id, iterationKey⟩
  match acc.nodes.getIteration node.id iterationKey with
  | some existing =>
    if existing.status = .pending then
      { nodes := acc.nodes.setStatus id .ready, ids := acc.ids ++ [node.id] }
    else acc
  | none =>
    { nodes := (supersedePlaceholder acc.nodes node.id (NodeRun.supersede now)).insertNew id
        (node.iterationRow [("iteration_key", .str iterationKey), ("upstream", .obj output)])
      ids := acc.ids ++ [node.id] }

def ensureEdge (g : WorkflowGraph) (now : Time) (iterationKey : String) (output : JsonObject)
    (acc : Unlocked) (edge : GraphEdge) : Unlocked :=
  match g.node? edge.target with
  | none => acc
  | some node =>
    if isMergeTarget acc.nodes node then acc.promote g edge.target
    else spawnDownstream now node iterationKey output acc

def ensureDownstreamIteration (g : WorkflowGraph) (now : Time) (t : NodeTable)
    (sourceNodeId iterationKey : String) (output : JsonObject) : Unlocked :=
  if iterationKey = "" then { nodes := t }
  else (g.successors sourceNodeId).foldl (ensureEdge g now iterationKey output) { nodes := t }

/-! ### Keys are not empty -/

theorem pyTake_ne_empty {n : ℕ} (hn : 0 < n) {s : String} (h : s ≠ "") : pyTake n s ≠ "" := by
  have hlist : s.toList ≠ [] := by simpa using h
  unfold pyTake
  intro hempty
  rw [← String.ofList_nil, String.ofList_inj, take_eq_nil_iff] at hempty
  rcases hempty with hzero | hnil
  · omega
  · exact hlist hnil

theorem indexKey_ne_empty (index : ℕ) : s!"i{index}" ≠ "" := by
  intro h
  have hlength := congrArg (fun s : String ↦ s.toList.length) h
  simp at hlength

/-- The key of an item names its place, or is the beginning of a text of it. -/
theorem iterationKeyForItem_cases (render : Json → String) (item : Json) (index : ℕ) :
    iterationKeyForItem render item index = s!"i{index}" ∨
      ∃ text, pyStrip text ≠ "" ∧ iterationKeyForItem render item index = pyTake 128 (pyStrip text) := by
  have htext : ∀ value : Json, ∀ key,
      (if pyStrip (value.text render) ≠ "" then some (pyTake 128 (pyStrip (value.text render)))
        else none) = some key → ∃ text, pyStrip text ≠ "" ∧ key = pyTake 128 (pyStrip text) := by
    intro value key hkey
    split_ifs at hkey with hstrip
    exact ⟨_, hstrip, (Option.some.inj hkey).symm⟩
  have hget : ∀ found : Option String,
      (∀ key, found = some key → ∃ text, pyStrip text ≠ "" ∧ key = pyTake 128 (pyStrip text)) →
      found.getD s!"i{index}" = s!"i{index}" ∨
        ∃ text, pyStrip text ≠ "" ∧ found.getD s!"i{index}" = pyTake 128 (pyStrip text) := by
    intro found hfound
    cases found with
    | none => exact .inl rfl
    | some key => exact .inr (hfound key rfl)
  unfold iterationKeyForItem
  split
  · refine hget _ fun key hkey ↦ ?_
    obtain ⟨field, -, hfield⟩ := exists_of_findSome?_eq_some hkey
    dsimp only at hfield
    split at hfield
    · simp at hfield
    · simp at hfield
    · exact htext _ key hfield
  · exact hget _ fun key hkey ↦ htext _ key hkey
  · exact hget _ fun key hkey ↦ htext _ key hkey
  · exact hget _ fun key hkey ↦ htext _ key hkey
  · exact .inl rfl

theorem iterationKeyForItem_ne_empty (render : Json → String) (item : Json) (index : ℕ) :
    iterationKeyForItem render item index ≠ "" := by
  rcases iterationKeyForItem_cases render item index with hindex | ⟨text, htext, hkey⟩
  · rw [hindex]
    exact indexKey_ne_empty index
  · rw [hkey]
    exact pyTake_ne_empty (by decide) htext

/-- No item gets the key of the placeholder. -/
theorem uniqueKeysFrom_ne_empty (render : Json → String) (index : ℕ) (seen : List String)
    (items : List Json) :
    ∀ keyed ∈ uniqueKeysFrom render index seen items, keyed.1 ≠ "" := by
  induction items generalizing index seen with
  | nil => simp [uniqueKeysFrom]
  | cons item rest ih =>
    intro keyed hmem
    rw [uniqueKeysFrom, mem_cons] at hmem
    rcases hmem with rfl | hrest
    · dsimp only
      have hbase := iterationKeyForItem_ne_empty render item index
      split_ifs with hfirst
      · exact hbase
      · refine pyTake_ne_empty (by decide) fun h ↦ hbase ?_
        have hlength := congrArg (fun s : String ↦ s.toList.length) h
        simp at hlength
    · exact ih _ _ keyed hrest

theorem uniqueIterationKeys_ne_empty (render : Json → String) (items : List Json) :
    ∀ keyed ∈ uniqueIterationKeys render items, keyed.1 ≠ "" :=
  uniqueKeysFrom_ne_empty render 0 [] items

/-! ### What the loops do to each row -/

/-- The row of an item after it has been handed out: created, set `READY` when it was pending, and
otherwise as it was. -/
def NodeRun.seeded (node : GraphNode) (seed : JsonObject) : Option NodeRun → NodeRun
  | none => node.iterationRow seed
  | some row =>
    if row.status = .pending then
      { row with status := .ready, inputJson := row.inputJson.update seed }
    else row

theorem NodeRun.seeded_status_ne_pending (node : GraphNode) (seed : JsonObject)
    (found : Option NodeRun) : (NodeRun.seeded node seed found).status ≠ .pending := by
  unfold NodeRun.seeded
  split
  · exact NodeStatus.noConfusion
  · split_ifs with hpending
    · exact NodeStatus.noConfusion
    · exact hpending

/-- A row that has been handed out is not handed out again. -/
theorem NodeRun.seeded_seeded (node : GraphNode) (seed seed' : JsonObject)
    (found : Option NodeRun) :
    NodeRun.seeded node seed' (some (NodeRun.seeded node seed found)) =
      NodeRun.seeded node seed found := by
  conv_lhs => unfold NodeRun.seeded
  exact if_neg (NodeRun.seeded_status_ne_pending node seed found)

theorem find_supersedePlaceholder (t : NodeTable) (target : String) (f : NodeRun → NodeRun)
    (id : RowId) :
    (supersedePlaceholder t target f).find id =
      if id = ⟨target, ""⟩ then
        (t.find id).map fun row ↦ if row.status.isSkippable then f row else row
      else t.find id :=
  find_modify _ _ _ _

theorem find_spawnItem (node : GraphNode) (fanOutNodeId : String) (acc : Materialized)
    (keyed : String × Json) (id : RowId) :
    (spawnItem node fanOutNodeId acc keyed).nodes.find id =
      if id = ⟨node.id, keyed.1⟩ then
        some (NodeRun.seeded node (seedIterationInputs keyed.2 keyed.1 fanOutNodeId)
          (acc.nodes.find id))
      else acc.nodes.find id := by
  unfold spawnItem getIteration
  cases hfound : acc.nodes.find ⟨node.id, keyed.1⟩ with
  | none =>
    simp only [find_insertNew, hfound, and_true]
    split_ifs with hid
    · rw [hid, hfound]
      rfl
    · rfl
  | some existing =>
    by_cases hid : id = ⟨node.id, keyed.1⟩
    · rw [if_pos hid, hid, hfound]
      by_cases hpending : existing.status = .pending
      · simp [hpending, hfound, NodeRun.seeded]
      · simp [hpending, hfound, NodeRun.seeded]
    · rw [if_neg hid]
      by_cases hpending : existing.status = .pending
      · simp [hpending, find_modify_of_ne _ _ hid]
      · simp [hpending]

theorem find_spawnItems (node : GraphNode) (fanOutNodeId : String) (keyed : List (String × Json))
    (acc : Materialized) (id : RowId) :
    (keyed.foldl (spawnItem node fanOutNodeId) acc).nodes.find id =
      match keyed.find? fun pair ↦ id = ⟨node.id, pair.1⟩ with
      | none => acc.nodes.find id
      | some pair =>
        some (NodeRun.seeded node (seedIterationInputs pair.2 pair.1 fanOutNodeId)
          (acc.nodes.find id)) := by
  induction keyed generalizing acc with
  | nil => rfl
  | cons first rest ih =>
    rw [foldl_cons, ih, find_spawnItem]
    by_cases hid : id = ⟨node.id, first.1⟩
    · rw [find?_cons_of_pos (by simpa using hid)]
      simp only [if_pos hid]
      split
      · rfl
      · rw [NodeRun.seeded_seeded]
    · rw [find?_cons_of_neg (by simpa using hid)]
      simp only [if_neg hid]

/-- The rows after an iteration has been handed to one target. Assumes: the key is not empty. -/
theorem find_spawnDownstream (now : Time) (node : GraphNode) {iterationKey : String}
    (hkey : iterationKey ≠ "") (output : JsonObject) (acc : Unlocked) (id : RowId) :
    (spawnDownstream now node iterationKey output acc).nodes.find id =
      if id = ⟨node.id, iterationKey⟩ then
        some (match acc.nodes.find id with
          | none => node.iterationRow
              [("iteration_key", .str iterationKey), ("upstream", .obj output)]
          | some row => if row.status = .pending then { row with status := .ready } else row)
      else if acc.nodes.find ⟨node.id, iterationKey⟩ = none then
        (supersedePlaceholder acc.nodes node.id (NodeRun.supersede now)).find id
      else acc.nodes.find id := by
  have hplaceholder : (⟨node.id, iterationKey⟩ : RowId) ≠ ⟨node.id, ""⟩ := by
    intro h
    exact hkey (congrArg RowId.iterationKey h)
  unfold spawnDownstream getIteration
  cases hfound : acc.nodes.find ⟨node.id, iterationKey⟩ with
  | none =>
    have habsent : (supersedePlaceholder acc.nodes node.id (NodeRun.supersede now)).find
        ⟨node.id, iterationKey⟩ = none := by
      rw [find_supersedePlaceholder, if_neg hplaceholder, hfound]
    simp only [find_insertNew, habsent, and_true, if_true]
    split_ifs with hid
    · rw [hid, hfound]
    · rfl
  | some existing =>
    simp only [reduceCtorEq, if_false]
    by_cases hid : id = ⟨node.id, iterationKey⟩
    · rw [if_pos hid, hid, hfound]
      by_cases hpending : existing.status = .pending
      · simp [hpending, hfound, setStatus]
      · simp [hpending, hfound]
    · rw [if_neg hid]
      by_cases hpending : existing.status = .pending
      · simp [hpending, setStatus, find_modify_of_ne _ _ hid]
      · simp [hpending]

end ContentGenerator.Workflows

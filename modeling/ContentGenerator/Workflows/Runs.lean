import ContentGenerator.Workflows.OpSteps
import ContentGenerator.Workflows.ValidGraph

/-!
# Runs

What holds in every state of a run. `Reachable.rows_invariant` is the rule: a property of the row
table that holds at the start, survives every quiet step, every row that finishes and is handed on,
and every reset, holds in every reachable state. A hand-off is a run of unlock steps or of spawn steps
(`HandOff.apply_unlocks`, `HandOff.apply_spawns`), and `HandOff.spawnKeys` says which.

The first use is `WellFormed`: every node keeps its placeholder, and every row has the type of its
node.
-/

namespace ContentGenerator.Workflows

open Lib Relation List Option KeyedTable
open ReflTransGen (invariant)

variable {calls : List (Time × Op)} {id : RowId} {op : Op} {row : NodeRun} {source : String} {h : HandOff}
  {keys : List String} {st : EngineState} {env : EngineEnv} {now : Time}

/-! ### Hand-offs as steps -/

/-- The iteration keys a hand-off hands out, or nothing when it unlocks the successors. -/
def HandOff.spawnKeys (env : EngineEnv) (h : HandOff) : Option (List String) :=
  match h.nodeType with
  | none => none
  | some nodeType =>
    if nodeType = "fan_out" ∧ h.finish.status = .succeeded then
      some ((uniqueIterationKeys env.render (fanOutItems h.finish.output)).map Prod.fst)
    else if h.finish.id.iterationKey ≠ "" then some [h.finish.id.iterationKey]
    else none

def HandOff.isFanOut (h : HandOff) : Bool :=
  h.nodeType = some "fan_out" ∧ h.finish.status = .succeeded

/-- The three functions a hand-off can call. -/
theorem HandOff.apply_cases (env : EngineEnv) (now : Time) (h : HandOff) :
    (h.nodeType = some "fan_out" ∧ h.finish.status = .succeeded ∧
        h.spawnKeys env =
          some ((uniqueIterationKeys env.render (fanOutItems h.finish.output)).map Prod.fst) ∧
        h.apply env now = (materializeFanOutSuccess env.graph env.render now h.nodes
          h.finish.id.nodeId h.finish.output).nodes) ∨
      (¬ (h.nodeType = some "fan_out" ∧ h.finish.status = .succeeded) ∧
        h.finish.id.iterationKey ≠ "" ∧ h.spawnKeys env = some [h.finish.id.iterationKey] ∧
        h.apply env now = (ensureDownstreamIteration env.graph now h.nodes h.finish.id.nodeId
          h.finish.id.iterationKey h.finish.output).nodes) ∨
      (h.spawnKeys env = none ∧
        h.apply env now = (unlockAfterNodeSuccess env.graph now h.nodes h.finish.id.nodeId
          h.finish.output).nodes) := by
  obtain ⟨finish, nodeType, nodes⟩ := h
  cases nodeType with
  | none => exact .inr (.inr ⟨rfl, rfl⟩)
  | some nodeType =>
    simp only [HandOff.apply, HandOff.spawnKeys, propagate]
    by_cases hfan : nodeType = "fan_out" ∧ finish.status = .succeeded
    · rw [if_pos hfan, if_pos hfan]
      exact .inl ⟨by rw [hfan.1], hfan.2, rfl, rfl⟩
    · rw [if_neg hfan, if_neg hfan]
      by_cases hkey : finish.id.iterationKey ≠ ""
      · rw [if_pos hkey, if_pos hkey]
        exact .inr (.inl ⟨by simpa using hfan, hkey, rfl, rfl⟩)
      · rw [if_neg hkey, if_neg hkey]
        exact .inr (.inr ⟨rfl, rfl⟩)

/-- Without successors a hand-off changes nothing. -/
theorem HandOff.apply_of_no_successors (h : HandOff)
    (hnone : env.graph.successors h.finish.id.nodeId = []) : h.apply env now = h.nodes := by
  rcases h.apply_cases env now with ⟨-, -, -, happly⟩ | ⟨-, -, -, happly⟩ | ⟨-, happly⟩
  · rw [happly, materializeFanOutSuccess, hnone]
    rfl
  · rw [happly, ensureDownstreamIteration, hnone]
    split_ifs <;> rfl
  · rw [happly, unlockAfterNodeSuccess, hnone]
    split
    · split_ifs <;> rfl
    · rfl

theorem HandOff.apply_unlocks (hkeys : h.spawnKeys env = none) :
    ReflTransGen (UnlockStep env.graph
      (SkippedEdge env.graph h.finish.id.nodeId h.finish.output) h.nodes) h.nodes
      (h.apply env now) := by
  rcases h.apply_cases env now with ⟨-, -, hsome, -⟩ | ⟨-, -, hsome, -⟩ | ⟨-, happly⟩
  · exact absurd (hkeys.symm.trans hsome) (by simp)
  · exact absurd (hkeys.symm.trans hsome) (by simp)
  · rw [happly]
    exact unlockAfterNodeSuccess_steps _ _ _ _

theorem HandOff.apply_spawns
    (hkeys : h.spawnKeys env = some keys) :
    ReflTransGen (SpawnStep env.graph h.finish.id.nodeId h.isFanOut keys) h.nodes
      (h.apply env now) := by
  rcases h.apply_cases env now with ⟨hfan, hstatus, hsome, happly⟩ | ⟨hfan, -, hsome, happly⟩ |
    ⟨hnone, -⟩
  · obtain rfl := mem_unique hkeys hsome
    rw [happly, show h.isFanOut = true by simp [HandOff.isFanOut, hfan, hstatus]]
    exact materializeFanOutSuccess_steps _ _ _ _ _
  · obtain rfl := mem_unique hkeys hsome
    rw [happly, show h.isFanOut = false by simpa [HandOff.isFanOut] using hfan]
    exact ensureDownstreamIteration_steps _ _ _ _ _
  · exact absurd (hkeys.symm.trans hnone) (by simp)

/-! ### The rule -/

section Rule

variable {allowed : Time → Op → EngineState → Prop} {P : NodeTable → Prop}

/-- What an operation does to a property of the rows. Assumes: it survives the steps. -/
theorem Op.run_rows
    (hquiet : ∀ t t', P t → QuietStep env.graph t t' → P t')
    (hhand : ∀ h row row', op.handOff env now st = some h → HandsOff env.graph st h row row' →
      P (h.apply env now))
    (hreset : ∀ nodeId t t', op = .retryFromNode nodeId → P st.nodes → P t →
      QuietStep env.graph st.nodes t → ReflTransGen (ResetStep env.graph nodeId) t t' → P t')
    (hst : P st.nodes) : P (op.run env now st).nodes := by
  have hrun : ∀ t t', P t → ReflTransGen (QuietStep env.graph) t t' → P t' := fun t t' ht hsteps ↦
    invariant (fun a b ↦ hquiet a b) hsteps ht
  unfold Op.run
  split
  · rename_i st' happly
    by_cases hretry : op.isRetryFrom
    · cases op with
      | retryFromNode nodeId =>
        obtain ⟨t, t', hfirst, hresets, hrest⟩ := retryFromNode_steps happly
        have ht := hquiet _ _ hst hfirst
        exact hrun _ _ (hreset nodeId t t' rfl hst ht hfirst hresets) hrest
      | _ => exact absurd hretry (by simp [Op.isRetryFrom])
    · have heffect := Op.apply_steps hretry happly
      cases hoff : op.handOff env now st with
      | none =>
        rw [hoff] at heffect
        exact hrun _ _ hst heffect
      | some h =>
        rw [hoff] at heffect
        obtain ⟨⟨row, row', hhandsOff⟩, hrest⟩ := heffect
        exact hrun _ _ (hhand h row row' hoff hhandsOff) hrest
  · exact hst

/-- A property of the rows that holds at the start and survives every step holds in every reachable
state. -/
theorem Reachable.rows_invariant (hstart : P (startTable env.graph))
    (hquiet : ∀ t t', P t → QuietStep env.graph t t' → P t')
    (hhand : ∀ now op st h row row', allowed now op st → op.handOff env now st = some h →
      HandsOff env.graph st h row row' → P st.nodes → P (h.apply env now))
    (hreset : ∀ now nodeId st t t', allowed now (.retryFromNode nodeId) st → P st.nodes → P t →
      QuietStep env.graph st.nodes t → ReflTransGen (ResetStep env.graph nodeId) t t' → P t')
    (hst : Reachable env allowed st) : P st.nodes := by
  obtain ⟨now, mode, triggerPayload, snapshot, hrun⟩ := hst
  refine invariant (P := fun st : EngineState ↦ P st.nodes) ?_ hrun ?_
  · intro st st' hnodes hstep
    cases hstep with
    | call now op _ h =>
      refine Op.run_rows hquiet (fun handOff row row' hop hoff ↦
        hhand now op st handOff row row' h hop hoff hnodes) ?_ hnodes
      rintro nodeId t t' rfl
      exact hreset now nodeId st t t' h
    | deliver now op _ i _ _ h =>
      refine Op.run_rows hquiet (fun handOff row row' hop hoff ↦
        hhand now op _ handOff row row' h hop hoff hnodes) ?_ hnodes
      rintro nodeId t t' rfl
      exact hreset now nodeId _ t t' h
  · cases mode with
    | inline =>
      exact invariant (fun a b ↦ hquiet a b) (advance_steps _) hstart
    | enqueued | idle => exact hstart

end Rule

def anyOp : Time → Op → EngineState → Prop := fun _ _ _ ↦ True

def EngineEnv.play (env : EngineEnv) (calls : List (Time × Op)) (st : EngineState) : EngineState :=
  calls.foldl (fun st call ↦ call.2.run env call.1 st) st

/-- Every call of the list is allowed in the state it meets. -/
def EngineEnv.Permits (env : EngineEnv) (allowed : Time → Op → EngineState → Prop) :
    List (Time × Op) → EngineState → Prop
  | [], _ => True
  | (now, op) :: rest, st => allowed now op st ∧ env.Permits allowed rest (op.run env now st)

theorem permits_anyOp (env : EngineEnv) (calls : List (Time × Op)) (st : EngineState) :
    env.Permits anyOp calls st := by
  induction calls generalizing st with
  | nil => exact trivial
  | cons call rest ih => exact ⟨trivial, ih _⟩

theorem play_reflTransGen {allowed : Time → Op → EngineState → Prop}
    (h : env.Permits allowed calls st) :
    ReflTransGen (Step env allowed) st (env.play calls st) := by
  induction calls generalizing st with
  | nil => exact .refl
  | cons call rest ih => exact .head (.call call.1 call.2 st h.1) (ih h.2)

theorem reachable_play {allowed : Time → Op → EngineState → Prop} (now : Time) (mode : StartMode)
    (triggerPayload snapshot : JsonObject)
    (h : env.Permits allowed calls (startRun env now mode triggerPayload snapshot)) :
    Reachable env allowed (env.play calls (startRun env now mode triggerPayload snapshot)) :=
  ⟨now, mode, triggerPayload, snapshot, play_reflTransGen h⟩

/-! ### The start -/

theorem find_startTable (g : WorkflowGraph) (id : RowId) :
    (startTable g).find id =
      if id.iterationKey = "" then (g.node? id.nodeId).map fun node ↦ (startRow g node).2
      else none := by
  have hfold : startTable g = (g.nodes.map (startRow g)).foldl
      (fun t entry ↦ t.insertNew entry.1 entry.2) { entries := [], nodupKeys := nodup_nil } := by
    rw [foldl_map]
    rfl
  have hempty : (({ entries := [], nodupKeys := nodup_nil } : NodeTable).find id) = none := rfl
  rw [hfold, find_foldl_insertNew, hempty, none_or, find?_map,
    Option.map_map]
  obtain ⟨nodeId, key⟩ := id
  split_ifs with hkey
  · obtain rfl : key = "" := hkey
    have hsame : ((fun entry : RowId × NodeRun ↦ decide (entry.1 = ⟨nodeId, ""⟩)) ∘ startRow g) =
        fun node : GraphNode ↦ decide (node.id = nodeId) := by
      funext node
      simp [startRow]
    rw [hsame]
    rfl
  · rw [find?_eq_none.mpr]
    · rfl
    · intro node _
      simp [startRow, Ne.symm hkey]

/-! ### Well-formed tables -/

/-- Every node has its placeholder, and every row the type of its node. -/
structure WellFormed (g : WorkflowGraph) (t : NodeTable) : Prop where
  placeholder : ∀ nodeId, (g.node? nodeId).isSome → (t.find ⟨nodeId, ""⟩).isSome
  nodeType : ∀ id row, t.find id = some row →
    ∃ node, g.node? id.nodeId = some node ∧ row.nodeType = node.type

section WellFormed

variable {g : WorkflowGraph} {t t' : NodeTable}

/-- A node with a row is represented by its placeholder. -/
theorem WellFormed.get_id (h : WellFormed g t) {nodeId : String}
    (hget : t.get nodeId = some (id, row)) : id = ⟨nodeId, ""⟩ := by
  obtain ⟨hfind, hid⟩ := NodeTable.get_eq_some hget
  obtain ⟨node, hnode, -⟩ := h.nodeType id row hfind
  have hsome : (g.node? nodeId).isSome := by
    rw [← show id.nodeId = nodeId from hid, hnode]
    rfl
  obtain ⟨placeholder, hplaceholder⟩ := isSome_iff_exists.mp (h.placeholder nodeId hsome)
  rw [NodeTable.get_of_find hplaceholder] at hget
  exact (congrArg Prod.fst (Option.some.inj hget)).symm

theorem wellFormed_startTable (g : WorkflowGraph) : WellFormed g (startTable g) where
  placeholder := by
    intro nodeId hnode
    rw [find_startTable, if_pos rfl]
    simpa using hnode
  nodeType := by
    intro id row hrow
    rw [find_startTable] at hrow
    split_ifs at hrow
    obtain ⟨node, hnode, rfl⟩ := map_eq_some_iff.mp hrow
    exact ⟨node, hnode, rfl⟩

/-- A rewrite of rows that keeps their types. -/
theorem WellFormed.mapValues (h : WellFormed g t) {f : RowId → NodeRun → NodeRun}
    (hf : ∀ id row, t.find id = some row → (f id row).nodeType = row.nodeType) :
    WellFormed g (t.mapValues f) where
  placeholder := by
    intro nodeId hnode
    rw [find_mapValues, isSome_map]
    exact h.placeholder nodeId hnode
  nodeType := by
    intro id row hrow
    rw [find_mapValues] at hrow
    obtain ⟨old, hold, rfl⟩ := map_eq_some_iff.mp hrow
    rw [hf id old hold]
    exact h.nodeType id old hold

theorem WellFormed.modify (h : WellFormed g t) {f : NodeRun → NodeRun}
    (hf : ∀ row, t.find id = some row → (f row).nodeType = row.nodeType) :
    WellFormed g (t.modify id f) := by
  refine h.mapValues fun key row hrow ↦ ?_
  split_ifs with hkey
  · exact hf row (hkey ▸ hrow)
  · rfl

theorem WellFormed.promotes (h : WellFormed g t) (hstep : Promotes g t t') : WellFormed g t' := by
  cases hstep with
  | intro => exact h.modify fun _ _ ↦ rfl

theorem WellFormed.quietStep (h : WellFormed g t) (hstep : QuietStep g t t') : WellFormed g t' := by
  cases hstep with
  | promote hpromotes => exact h.promotes hpromotes
  | write f hf => exact h.mapValues fun id row hrow ↦ (hf id row hrow).nodeType

/-- A row finishes. -/
theorem WellFormed.handsOff {row' : NodeRun}
    (hwf : WellFormed g st.nodes) (hoff : HandsOff g st h row row') : WellFormed g h.nodes := by
  rw [hoff.nodes]
  refine hwf.modify fun current hcurrent ↦ ?_
  rw [hoff.find] at hcurrent
  rw [← Option.some.inj hcurrent]
  exact hoff.proceeds.nodeType

theorem WellFormed.unlockStep {skips : GraphEdge → Prop} {t₀ : NodeTable} (h : WellFormed g t)
    (hstep : UnlockStep g skips t₀ t t') : WellFormed g t' := by
  cases hstep with
  | promote hpromotes => exact h.promotes hpromotes
  | skipTarget | skipJoin => exact h.modify fun _ _ ↦ rfl

theorem WellFormed.spawns {node : GraphNode} (h : WellFormed g t)
    (hnode : g.node? node.id = some node) (hspawns : Spawns node keys t t') : WellFormed g t' where
  placeholder := by
    intro nodeId hdeclared
    have hold := h.placeholder nodeId hdeclared
    by_cases hsame : nodeId = node.id
    · subst hsame
      rcases hspawns.placeholder with hkept | ⟨_, row', _, _, hrow', _⟩
      · rwa [hkept]
      · rw [hrow']
        rfl
    · rwa [hspawns.other _ hsame]
  nodeType := by
    rintro ⟨nodeId, key⟩ row hrow
    by_cases hsame : nodeId = node.id
    · subst hsame
      refine ⟨node, hnode, ?_⟩
      have hkept : ∀ old, t.find ⟨node.id, key⟩ = some old → old.nodeType = node.type := by
        intro old hold
        obtain ⟨node', hnode', htype⟩ := h.nodeType _ old hold
        rw [hnode] at hnode'
        rw [htype, Option.some.inj hnode']
      by_cases hkey : key = ""
      · subst hkey
        rcases hspawns.placeholder with hsame | ⟨old, row', hold, -, hrow', -, htype⟩
        · exact hkept row (hsame ▸ hrow)
        · rw [hrow] at hrow'
          rw [Option.some.inj hrow', htype]
          exact hkept old hold
      · by_cases hmem : key ∈ keys
        · rcases hspawns.nodeType key hmem row hrow with htype | ⟨old, hold, htype⟩
          · exact htype
          · rw [htype]
            exact hkept old hold
        · exact hkept row (hspawns.unkeyed key hkey hmem ▸ hrow)
    · rw [hspawns.other _ hsame] at hrow
      exact h.nodeType _ row hrow

theorem WellFormed.spawnStep {fanOut : Bool}
    (h : WellFormed g t) (hstep : SpawnStep g source fanOut keys t t') : WellFormed g t' := by
  cases hstep with
  | promote hpromotes => exact h.promotes hpromotes
  | spawn edge node _ hnode _ hspawns =>
    refine h.spawns ?_ hspawns
    rwa [WorkflowGraph.id_of_node? hnode]

theorem WellFormed.resetStep (h : WellFormed g t)
    (hstep : ResetStep g source t t') : WellFormed g t' := by
  cases hstep with
  | intro id row _ _ =>
    refine h.modify fun row _ ↦ ?_
    unfold NodeRun.resetDescendantToPending
    split_ifs <;> rfl

theorem WellFormed.handOff (env : EngineEnv) (now : Time)
    (hwf : WellFormed env.graph h.nodes) : WellFormed env.graph (h.apply env now) := by
  cases hkeys : h.spawnKeys env with
  | none =>
    exact invariant (P := WellFormed env.graph) (fun _ _ hinv hstep ↦ hinv.unlockStep hstep)
      (h.apply_unlocks hkeys) hwf
  | some keys =>
    exact invariant (P := WellFormed env.graph) (fun _ _ hinv hstep ↦ hinv.spawnStep hstep)
      (h.apply_spawns hkeys) hwf

end WellFormed

theorem Reachable.wellFormed {allowed : Time → Op → EngineState → Prop}
    (hst : Reachable env allowed st) : WellFormed env.graph st.nodes :=
  hst.rows_invariant (wellFormed_startTable env.graph)
    (fun _ _ hinv hstep ↦ hinv.quietStep hstep)
    (fun now _ _ _ _ _ _ _ hoff hinv ↦ (hinv.handsOff hoff).handOff env now)
    (fun _ _ _ _ _ _ _ hinv _ hresets ↦
      invariant (P := WellFormed env.graph) (fun _ _ hinv hstep ↦ hinv.resetStep hstep)
        hresets hinv)

theorem Reachable.wellFormed_handOff {allowed : Time → Op → EngineState → Prop}
    (hst : Reachable env allowed st)
    (hop : op.handOff env now st = some h) : WellFormed env.graph h.nodes := by
  obtain ⟨row, row', hhandsOff⟩ := Op.handsOff hop
  exact hst.wellFormed.handsOff hhandsOff

end ContentGenerator.Workflows

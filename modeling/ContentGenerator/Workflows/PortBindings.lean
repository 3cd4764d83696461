import ContentGenerator.Workflows.PortValues

/-!
# What a bound port receives

The port resolver writes one dictionary in four stages: the explicit bindings, the incoming edges, the names
that are still missing, and the merged bag below all of it. An edge that names a bound port as its target is
kept away from it. An edge that names a source port and no target port is not: it writes the value under the
name of its source port (`sourceWrite`). And a value that a binding has read from an output changes with the
lists of the output (`Reads`), which edges to other ports may extend.

`supplied_of_isBound` says what a bound port receives, `explicit_bindings_win_iff` is the exact condition
under which every binding wins, and `source_port_overrides_binding` a graph in which one does not.
-/

namespace ContentGenerator.Workflows

open Lib Lib.JsonObject List Option KeyedTable
open Prod (fst)

variable {entry : String × InputBinding} {args : ResolveArgs} {wiring : Wiring} {port : String} {edge : GraphEdge}

/-! ### The writes that no target port names -/

/-- The source and the value of an edge that writes under the name of the port with its source port alone. -/
def sourceWrite (args : ResolveArgs) (port : String) (edge : GraphEdge) : Option (String × Json) :=
  match edge.sourcePort.filter (· ≠ ""), edge.targetPort.filter (· ≠ "") with
  | some sport, none =>
    if sport = port then ((args.outputOf edge.source).get sport).map (Prod.mk edge.source) else none
  | _, _ => none

/-- The last such write of the incoming edges of the node. -/
def lastSourceWrite (args : ResolveArgs) (port : String) : Option (String × Json) :=
  (args.incoming.filterMap (sourceWrite args port)).getLast?

/-- What a bound port holds after the writes: the last one, else the binding. -/
def heldOf (port : String) (binding : InputBinding) : Option (String × Json) → Held
  | some write => .given (givenOf write.1 port write.2)
  | none => .bound binding

/-- An edge writes to a bound port under the name of its source port only. -/
theorem find_wireEdge_of_isBound (hbound : args.isBound port) {held : Held}
    (hheld : wiring.inputs.find port = some held) :
    (wireEdge args wiring edge).inputs.find port =
      some (((sourceWrite args port edge).map fun write ↦ .given (givenOf write.1 port write.2)).getD held) := by
  unfold sourceWrite
  rcases target_cases edge with hnone | ⟨target, htarget, hnonempty⟩
  · rw [wireEdge_of_no_target hnone, hnone]
    cases edge.sourcePort.filter (· ≠ "") with
    | none =>
      dsimp only
      rw [find_setDefaults, hheld, some_or]
      rfl
    | some sport =>
      dsimp only
      by_cases hsport : sport = port
      · subst hsport
        rw [if_pos rfl]
        cases (args.outputOf edge.source).get sport with
        | none => exact hheld
        | some value =>
          dsimp only
          rw [find_hold, if_pos rfl]
          rfl
      · rw [if_neg hsport]
        cases (args.outputOf edge.source).get sport with
        | none => exact hheld
        | some value =>
          dsimp only
          rw [find_hold, if_neg (Ne.symm hsport)]
          exact hheld
  · have hfilter : edge.targetPort.filter (· ≠ "") = some target := by
      rw [htarget]
      exact filter_some_pos (decide_eq_true hnonempty)
    have hwrite : (wireEdge args wiring edge).inputs.find port = wiring.inputs.find port := by
      by_cases hkept : args.isBound target
      · rw [wireEdge_of_isBound htarget hnonempty hkept]
      · rw [wireEdge_of_target htarget hnonempty hkept, find_assignPort, if_neg]
        rintro rfl
        exact hkept hbound
    rw [hwrite, hheld, hfilter]
    cases edge.sourcePort.filter (· ≠ "") <;> rfl

/-- The bindings themselves: a dictionary has one entry for a port. -/
theorem find_bound {entries : List (String × InputBinding)} (hkeys : (entries.map fst).Nodup)
    (hentry : entry ∈ entries) (start : KeyedTable String Held) :
    (entries.foldl (fun acc entry ↦ acc.put entry.1 (.bound entry.2)) start).find entry.1 =
      some (.bound entry.2) := by
  induction entries using reverseRecOn with
  | nil => simp at hentry
  | append_singleton entries last ih =>
    rw [map_append, nodup_append] at hkeys
    rw [foldl_append, foldl_cons, foldl_nil, find_put]
    rcases mem_append.mp hentry with hbefore | hlast
    · rw [if_neg, ih hkeys.1 hbefore]
      exact hkeys.2.2 entry.1 (List.mem_map_of_mem hbefore) last.1 (by simp)
    · rw [mem_singleton.mp hlast, if_pos rfl]

theorem find_wire_of_isBound (hkeys : (args.graphNode.inputBindings.map fst).Nodup)
    (hentry : entry ∈ args.graphNode.inputBindings) (edges : List GraphEdge) :
    (wire args edges).inputs.find entry.1 =
      some (heldOf entry.1 entry.2 (edges.filterMap (sourceWrite args entry.1)).getLast?) := by
  induction edges using reverseRecOn with
  | nil => exact find_bound hkeys hentry _
  | append_singleton before edge ih =>
    rw [wire_append_singleton, find_wireEdge_of_isBound (List.mem_map_of_mem hentry) ih, filterMap_append,
      getLast?_append]
    cases hwrite : sourceWrite args entry.1 edge with
    | none =>
      rw [filterMap_cons_none hwrite]
      rfl
    | some write =>
      rw [filterMap_cons_some hwrite]
      rfl

/-- What a bound port receives. -/
theorem supplied_of_isBound (hkeys : (args.graphNode.inputBindings.map fst).Nodup)
    (hentry : entry ∈ args.graphNode.inputBindings) :
    args.supplied entry.1 =
      some ((heldOf entry.1 entry.2 (lastSourceWrite args entry.1)).json args.settled) := by
  have hmapped : args.mapped entry.1 =
      some ((heldOf entry.1 entry.2 (lastSourceWrite args entry.1)).json args.settled) := by
    rw [ResolveArgs.mapped, find_wire_of_isBound hkeys hentry]
    rfl
  have hfilled : args.filled entry.1 =
      some ((heldOf entry.1 entry.2 (lastSourceWrite args entry.1)).json args.settled) := by
    unfold ResolveArgs.filled
    rw [hmapped]
    induction args.inputPorts with
    | nil => rfl
    | cons declared rest ih =>
      rw [foldl_cons, some_or, ite_self]
      exact ih
  unfold ResolveArgs.supplied
  rw [hfilled, some_or, ite_self]

/-! ### Values that change with a list -/

/-- Whether the value of a binding holds a list of an output: it changes when an item is added to the list. -/
def Reads (args : ResolveArgs) (binding : InputBinding) (list : OutputList) : Prop :=
  resolveBinding (args.extend [(list, .null)]) binding ≠ resolveBinding args binding

/-- A value that extensions leave alone exactly when the extension of none of their lists changes it. -/
def Separates {α : Type} (value : List (OutputList × Json) → α) (base : α) : Prop :=
  ∀ added, value added = base ↔ ∀ list, addedTo added list ≠ [] → value [(list, .null)] = base

theorem separates_const {α : Type} (base : α) : Separates (fun _ ↦ base) base :=
  fun _ ↦ iff_of_true rfl fun _ _ ↦ rfl

/-- What is looked up inside a value. -/
def Separable (f : List (OutputList × Json) → Json → Json) : Prop :=
  ∀ value parts, Separates (fun added ↦ lookupParts (f added value) parts) (lookupParts value parts)

theorem separable_extendValue (list : OutputList) : Separable fun added ↦ extendValue added list := by
  rintro (_ | _ | _ | _ | _ | items | fields) (_ | ⟨part, rest⟩)
  case arr.nil =>
    intro added
    simp only [extendValue, lookupParts, Json.arr.injEq, append_right_eq_self]
    constructor
    · intro hnone other hother
      have hne : other ≠ list := fun heq ↦ hother (heq ▸ hnone)
      simp [addedTo, hne]
    · intro h
      by_contra hadded
      simpa [addedTo] using h list hadded
  all_goals exact separates_const _

/-- A dictionary whose values are extended. -/
theorem separable_fields {f : List (OutputList × Json) → String → Json → Json}
    (h : ∀ key, Separable fun added ↦ f added key) (d : JsonObject) (parts : List String) :
    Separates (fun added ↦ lookupParts (.obj (d.map fun field ↦ (field.1, f added field.1 field.2))) parts)
      (lookupParts (.obj d) parts) := by
  intro added
  cases parts with
  | nil =>
    have hfields : ∀ added : List (OutputList × Json),
        (d.map fun field ↦ (field.1, f added field.1 field.2)) = d ↔
          ∀ field ∈ d, f added field.1 field.2 = field.2 := by
      intro added
      conv_lhs => rhs; rw [← map_id d]
      rw [map_inj_left]
      exact forall₂_congr fun field _ ↦ ⟨fun h ↦ congrArg Prod.snd h, fun h ↦ congrArg (Prod.mk field.1) h⟩
    simp only [lookupParts, Json.obj.injEq, hfields]
    constructor
    · exact fun hall list hlist field hfield ↦ (h field.1 field.2 [] added).mp (hall field hfield) list hlist
    · exact fun hall field hfield ↦
        (h field.1 field.2 [] added).mpr fun list hlist ↦ hall list hlist field hfield
  | cons part rest =>
    have hlookup : ∀ fields : JsonObject, lookupParts (.obj fields) (part :: rest) =
        ((get fields part).map (lookupParts · rest)).getD .null := by
      intro fields
      rw [lookupParts]
      cases get fields part <;> rfl
    simp only [hlookup, get_map_values (f _)]
    cases get d part with
    | none => exact separates_const Json.null added
    | some value => exact h part value rest added

theorem separable_extendEntry (source : String) : Separable fun added ↦ extendEntry added source := by
  intro value parts
  cases value with
  | obj output =>
    exact separable_fields (f := fun added key ↦ extendValue added ⟨source, key⟩)
      (fun key ↦ separable_extendValue _) output parts
  | _ => exact fun _ ↦ iff_of_true rfl fun _ _ ↦ rfl

theorem separable_extendField (key : String) : Separable fun added ↦ extendField added key := by
  intro value parts
  cases value with
  | obj outputs =>
    simp only [extendField]
    split_ifs
    · exact separable_fields (f := extendEntry) separable_extendEntry outputs parts
    · exact separates_const _
  | _ => exact fun _ ↦ iff_of_true rfl fun _ _ ↦ rfl

theorem lookupDotted_eq (path : Option String) :
    ∃ parts, ∀ data, lookupDotted data path = lookupParts (.obj data) parts := by
  unfold lookupDotted
  cases path.filter (· ≠ "") with
  | none => exact ⟨[], fun _ ↦ rfl⟩
  | some dotted => exact ⟨_, fun _ ↦ rfl⟩

/-- A binding keeps its value exactly when no list that an edge extends is part of it. -/
theorem resolveBinding_settled_iff (args : ResolveArgs) (binding : InputBinding) :
    resolveBinding args.settled binding = resolveBinding args binding ↔
      ∀ list, Extends args list → ¬ Reads args binding list := by
  have hseparates : Separates (fun added ↦ resolveBinding (args.extend added) binding)
      (resolveBinding args binding) := by
    unfold resolveBinding
    cases binding.source with
    | constant => exact separates_const _
    | trigger | workflowInput => exact fun _ ↦ iff_of_true rfl fun _ _ ↦ rfl
    | context =>
      obtain ⟨parts, hparts⟩ := lookupDotted_eq binding.path
      simp only [hparts]
      exact separable_fields (f := extendField) separable_extendField args.runContext parts
    | node =>
      cases binding.nodeId.filter (· ≠ "") with
      | none => exact separates_const _
      | some nodeId =>
        obtain ⟨parts, hparts⟩ := lookupDotted_eq ((binding.path.filter (· ≠ "")).or binding.port)
        simp only [hparts, outputOf_extend]
        exact separable_fields (f := fun added key ↦ extendValue added ⟨nodeId, key⟩)
          (fun key ↦ separable_extendValue _) (args.outputOf nodeId) parts
  rw [ResolveArgs.settled, hseparates]
  refine forall_congr' fun list ↦ ?_
  rw [ne_eq, addedTo_added, not_not, Reads, not_not]

/-! ### When the bindings win -/

/-- When a binding wins: the last edge that writes under the name of its port carries the same value, with what
edges have added to it; and if there is none, no edge extends a list that the value holds. -/
def BindingKept (args : ResolveArgs) (port : String) (binding : InputBinding) : Prop :=
  match lastSourceWrite args port with
  | some write => extendValue args.added ⟨write.1, port⟩ write.2 = resolveBinding args binding
  | none => ∀ list, Extends args list → ¬ Reads args binding list

theorem lastSourceWrite_get {write : String × Json} (h : lastSourceWrite args port = some write) :
    (args.outputOf write.1).get port = some write.2 := by
  obtain ⟨edge, -, hwrite⟩ := mem_filterMap.mp (mem_of_getLast? h)
  unfold sourceWrite at hwrite
  split at hwrite
  · split_ifs at hwrite with hsport
    subst hsport
    obtain ⟨value, hvalue, rfl⟩ := map_eq_some_iff.mp hwrite
    exact hvalue
  · simp at hwrite

/-- When every explicit binding wins, for any graph, edges, outputs, payloads and run context. -/
theorem explicit_bindings_win_iff (args : ResolveArgs)
    (hkeys : (args.graphNode.inputBindings.map fst).Nodup) :
    (∀ entry ∈ args.graphNode.inputBindings,
      (resolvePortsAndBindings args).inputs.get entry.1 = some (resolveBinding args entry.2)) ↔
    ∀ entry ∈ args.graphNode.inputBindings, BindingKept args entry.1 entry.2 := by
  refine forall₂_congr fun entry hentry ↦ ?_
  rw [get_resolvePortsAndBindings, supplied_of_isBound hkeys hentry, some_inj, BindingKept]
  cases hlast : lastSourceWrite args entry.1 with
  | none => exact resolveBinding_settled_iff args entry.2
  | some write =>
    have hget := lastSourceWrite_get hlast
    obtain ⟨source, value⟩ := write
    have hjson : Held.json args.settled (.given (givenOf source entry.1 value)) =
        extendValue args.added ⟨source, entry.1⟩ value := by
      cases value with
      | arr items =>
        rw [givenOf, Held.json, ResolveArgs.settled, outputOf_extend, get_extendOutput, hget]
        rfl
      | _ => rfl
    dsimp only [heldOf]
    rw [hjson]

/-- The resolution of a transform whose port `text` is bound to a constant, behind one edge from the node
that writes a text. -/
def boundTransformArgs (edge : GraphEdge) : ResolveArgs :=
  let transform : GraphNode :=
    { id := "transform", type := "platform_transform",
      inputBindings := [("text", { source := .constant, value := .str "approved" })] }
  { graphNode := transform
    triggerPayload := []
    initialInputs := []
    upstreamOutputs := []
    runId := "run"
    schemaVersion := 2
    graph :=
      { schemaVersion := 2, nodes := [{ id := "write", type := "generate_text" }, transform], edges := [edge] }
    nodeOutputs := [("write", .obj [("text", .str "drafted")])]
    inputPorts := [{ name := "text", dataType := "string", required := false }]
    runContext := [] }

/-- An edge that names the bound port as its target is kept away from it. -/
theorem target_port_keeps_binding :
    JsonObject.get (resolvePortsAndBindings (boundTransformArgs
      { source := "write", target := "transform", sourcePort := some "text", targetPort := some "text" })).inputs
      "text" =
      some (.str "approved") := by
  refine (explicit_bindings_win_iff (boundTransformArgs
    { source := "write", target := "transform", sourcePort := some "text", targetPort := some "text" })
    (by decide)).mpr (fun entry hentry list _ ↦ ?_) _ (mem_singleton_self _)
  rw [mem_singleton.mp hentry]
  exact fun hreads ↦ hreads rfl

/-- An edge that names only its source port replaces the value of the binding. -/
theorem source_port_overrides_binding :
    ¬ ∀ entry ∈ (boundTransformArgs
        { source := "write", target := "transform", sourcePort := some "text" }).graphNode.inputBindings,
      JsonObject.get (resolvePortsAndBindings (boundTransformArgs
        { source := "write", target := "transform", sourcePort := some "text" })).inputs entry.1 =
        some (resolveBinding (boundTransformArgs
          { source := "write", target := "transform", sourcePort := some "text" }) entry.2) := by
  decide

/-- A publishing node whose accounts are bound to the variants of an upstream node: an edge hands the list of
variants on, and a second edge extends it, and with it the value of the binding. -/
example :
    let publish : GraphNode :=
      { id := "publish", type := "publish_content"
        inputBindings :=
          [("social_account_ids", { source := .node, nodeId := some "first", port := some "content_variant_ids" })] }
    JsonObject.get (resolvePortsAndBindings
      { graphNode := publish, triggerPayload := [], initialInputs := [], upstreamOutputs := [], runId := "run",
        schemaVersion := 2,
        graph :=
          { schemaVersion := 2, nodes := [publish]
            edges :=
              [{ source := "first", target := "publish", sourcePort := some "content_variant_ids" },
                { source := "second", target := "publish", sourcePort := some "content_variant_ids",
                  targetPort := some "content_variant_ids" }] }
        nodeOutputs :=
          [("first", .obj [("content_variant_ids", .arr [.str "v1"])]),
            ("second", .obj [("content_variant_ids", .arr [.str "v2"])])]
        inputPorts := [{ name := "content_variant_ids", dataType := "array", required := false }]
        runContext := [] }).inputs "social_account_ids" =
      some (.arr [.str "v1", .str "v2"]) := by
  decide

end ContentGenerator.Workflows

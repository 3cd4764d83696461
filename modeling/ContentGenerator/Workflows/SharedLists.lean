import ContentGenerator.Lib.JsonUpdate
import ContentGenerator.Workflows.Inputs

/-!
# Lists that edges extend in place

An edge without a target port hands a list of an output to an input as it is. When that input is an array port,
a later edge that targets the port extends the list, and with it the output.

`Extends` says when this happens, edge by edge. `addedTo_added` says that exactly these lists grow, and
`settled_of_not_extends` that otherwise the outputs are as they were.
-/

namespace ContentGenerator.Workflows

open Lib Lib.JsonObject List Option KeyedTable
open Prod (fst snd)

/-! ### Outputs with extended lists -/

section Outputs

variable {added : List (OutputList × Json)} {source key : String} {list : OutputList}

theorem get_map_values (f : String → Json → Json) (d : JsonObject) (key : String) :
    get (d.map fun field ↦ (field.1, f field.1 field.2)) key = (get d key).map (f key) := by
  induction d with
  | nil => rfl
  | cons field rest ih =>
    rw [map_cons, get_cons, get_cons, ih]
    dsimp only
    split_ifs with hkey
    · rw [hkey, map_some]
    · rfl

theorem get_extendOutput (output : JsonObject) (key : String) :
    get (extendOutput added source output) key = (get output key).map (extendValue added ⟨source, key⟩) :=
  get_map_values (fun key ↦ extendValue added ⟨source, key⟩) output key

theorem get_extendOutputs (nodeOutputs : JsonObject) (source : String) :
    get (extendOutputs added nodeOutputs) source = (get nodeOutputs source).map (extendEntry added source) :=
  get_map_values (extendEntry added) nodeOutputs source

theorem asDict_extendEntry (entry : Option Json) :
    asDict (entry.map (extendEntry added source)) = extendOutput added source (asDict entry) := by
  rcases entry with _ | (_ | _ | _ | _ | _ | _ | _) <;> rfl

theorem outputOf_extend (args : ResolveArgs) (added : List (OutputList × Json)) (source : String) :
    (args.extend added).outputOf source = extendOutput added source (args.outputOf source) := by
  unfold ResolveArgs.outputOf ResolveArgs.extend
  rw [get_extendOutputs, asDict_extendEntry]

@[simp] theorem addedTo_nil (list : OutputList) : addedTo [] list = [] := rfl

theorem map_values_id {f : String → Json → Json} {d : JsonObject} (h : ∀ key value, f key value = value) :
    (d.map fun field ↦ (field.1, f field.1 field.2)) = d := by
  conv_rhs => rw [← map_id d]
  exact map_congr_left fun field _ ↦ congrArg (Prod.mk field.1) (h field.1 field.2)

theorem extendValue_of_addedTo_eq_nil (h : addedTo added list = []) (value : Json) :
    extendValue added list value = value := by
  cases value with
  | arr items => rw [extendValue, h, append_nil]
  | _ => rfl

/-- An output none of whose lists is extended stays as it is. -/
theorem extendOutput_of_addedTo_eq_nil (h : ∀ key, addedTo added ⟨source, key⟩ = []) (output : JsonObject) :
    extendOutput added source output = output :=
  map_values_id (f := fun key ↦ extendValue added ⟨source, key⟩)
    fun key value ↦ extendValue_of_addedTo_eq_nil (h key) value

/-- An output stays as it is exactly when no list that it holds is extended. -/
theorem extendOutput_eq_self_iff (output : JsonObject) :
    extendOutput added source output = output ↔
      ∀ key items, (key, .arr items) ∈ output → addedTo added ⟨source, key⟩ = [] := by
  unfold extendOutput
  conv_lhs => rhs; rw [← map_id output]
  rw [map_inj_left]
  constructor
  · intro h key items hmem
    have hvalue := congrArg Prod.snd (h _ hmem)
    simpa [extendValue] using hvalue
  · rintro h ⟨key, value⟩ hmem
    cases value with
    | arr items => rw [extendValue, h key items hmem, append_nil, id]
    | _ => rfl

@[simp] theorem extendOutputs_nil (nodeOutputs : JsonObject) : extendOutputs [] nodeOutputs = nodeOutputs := by
  refine map_values_id fun source value ↦ ?_
  cases value with
  | obj output => rw [extendEntry, extendOutput_of_addedTo_eq_nil fun _ ↦ rfl]
  | _ => rfl

@[simp] theorem extend_nil (args : ResolveArgs) : args.extend [] = args := by
  have hcontext : (args.runContext.map fun field ↦ (field.1, extendField [] field.1 field.2)) =
      args.runContext := by
    refine map_values_id fun key value ↦ ?_
    cases value with
    | obj outputs => rw [extendField, extendOutputs_nil, ite_self]
    | _ => rfl
  unfold ResolveArgs.extend
  rw [hcontext, extendOutputs_nil]

end Outputs

/-! ### Which lists are extended -/

namespace ResolveArgs

def incoming (args : ResolveArgs) : List GraphEdge := args.graph.predecessors args.graphNode.id

/-- What an edge with a target port hands on. -/
def handed (args : ResolveArgs) (edge : GraphEdge) : Given :=
  match edge.sourcePort.filter (· ≠ "") with
  | some sport => (((args.outputOf edge.source).get sport).map (givenOf edge.source sport)).getD (.value .null)
  | none => .copyOf edge.source

def isBound (args : ResolveArgs) (port : String) : Prop := port ∈ args.graphNode.inputBindings.map fst

end ResolveArgs

/-- The edge extends the list: its target is an array port without a binding that holds the list when its turn
comes, and what it hands on has an item. -/
def ExtendsAt (args : ResolveArgs) (before : List GraphEdge) (edge : GraphEdge) (list : OutputList) : Prop :=
  ∃ port, edge.targetPort = some port ∧ port ≠ "" ∧ ¬ args.isBound port ∧ isArrayPort args.inputPorts port ∧
    (wire args before).inputs.find port = some (.given (.listOf list)) ∧
      (wire args before).elements args (args.handed edge) ≠ []

/-- An incoming edge extends the list. -/
def Extends (args : ResolveArgs) (list : OutputList) : Prop :=
  ∃ before edge after, args.incoming = before ++ edge :: after ∧ ExtendsAt args before edge list

variable {args : ResolveArgs} {wiring : Wiring} {edge : GraphEdge} {edges before : List GraphEdge} {list : OutputList}

theorem wire_append_singleton (args : ResolveArgs) (edges : List GraphEdge) (edge : GraphEdge) :
    wire args (edges ++ [edge]) = wireEdge args (wire args edges) edge := by
  unfold wire
  rw [foldl_append]
  rfl

theorem added_setDefaults (fields : JsonObject) (source : String) (wiring : Wiring) :
    (fields.foldl (fun acc field ↦ acc.setDefault field.1 (.given (givenOf source field.1 field.2)))
      wiring).added = wiring.added := by
  induction fields generalizing wiring with
  | nil => rfl
  | cons field rest ih => exact ih _

/-- The edge is passed over. -/
theorem wireEdge_of_isBound {port : String} (htarget : edge.targetPort = some port) (hport : port ≠ "")
    (hbound : args.isBound port) : wireEdge args wiring edge = wiring := by
  unfold wireEdge
  refine if_pos ?_
  rw [htarget, any_some]
  exact decide_eq_true ⟨hport, hbound⟩

/-- An edge to a port without a binding assigns what it hands on. -/
theorem wireEdge_of_target {port : String} (htarget : edge.targetPort = some port) (hport : port ≠ "")
    (hbound : ¬ args.isBound port) :
    wireEdge args wiring edge = assignPort args wiring port (args.handed edge) := by
  have hfilter : edge.targetPort.filter (· ≠ "") = some port := by
    rw [htarget]
    exact filter_some_pos (decide_eq_true hport)
  unfold wireEdge applyEdge ResolveArgs.handed
  rw [if_neg ?_, hfilter]
  · cases edge.sourcePort.filter (· ≠ "") <;> rfl
  · rw [htarget, any_some]
    exact fun h ↦ hbound (of_decide_eq_true h).2

/-- An edge without a target port. -/
theorem wireEdge_of_no_target (htarget : edge.targetPort.filter (· ≠ "") = none) :
    wireEdge args wiring edge =
      match edge.sourcePort.filter (· ≠ "") with
      | some sport =>
        match (args.outputOf edge.source).get sport with
        | some value => wiring.hold sport (.given (givenOf edge.source sport value))
        | none => wiring
      | none =>
        (args.outputOf edge.source).foldl
          (fun acc field ↦ acc.setDefault field.1 (.given (givenOf edge.source field.1 field.2))) wiring := by
  unfold wireEdge applyEdge
  rw [if_neg ?_, htarget]
  · cases edge.sourcePort.filter (· ≠ "") <;> rfl
  · cases hsome : edge.targetPort with
    | none => exact Bool.false_ne_true
    | some port =>
      rw [hsome, filter_eq_none_iff] at htarget
      rw [any_some]
      exact fun h ↦ htarget port rfl (decide_eq_true (of_decide_eq_true h).1)

theorem target_cases (edge : GraphEdge) :
    edge.targetPort.filter (· ≠ "") = none ∨
      ∃ port, edge.targetPort = some port ∧ port ≠ "" := by
  cases htarget : edge.targetPort with
  | none => exact .inl rfl
  | some port =>
    by_cases hport : port = ""
    · exact .inl (by simp [hport])
    · exact .inr ⟨port, rfl, hport⟩

/-- What a port holds once something is assigned to it. -/
def assignedHeld (args : ResolveArgs) (wiring : Wiring) (isArray : Bool) (given : Given) : Option Held → Held
  | none | some (.given (.value .null)) =>
    if isArray then .ownList (wiring.elements args given) else .given given
  | some (.given (.listOf list)) => .given (if isArray then .listOf list else given)
  | some (.ownList items) =>
    if isArray then .ownList (items ++ wiring.elements args given) else .given given
  | some _ => .given given

theorem find_hold (wiring : Wiring) (name port : String) (held : Held) :
    (wiring.hold name held).inputs.find port = if port = name then some held else wiring.inputs.find port :=
  find_put _ _ _ _

theorem find_assignPort (wiring : Wiring) (portName port : String) (given : Given) :
    (assignPort args wiring portName given).inputs.find port =
      if port = portName then
        some (assignedHeld args wiring (isArrayPort args.inputPorts portName) given
          (wiring.inputs.find portName))
      else wiring.inputs.find port := by
  unfold assignPort assignedHeld
  split_ifs with harray hport hport
  · subst hport
    split <;> simp_all [find_hold]
  · split <;> simp_all [find_hold]
  · subst hport
    split <;> simp_all [find_hold]
  · rw [find_hold, if_neg hport]

/-- What an assignment adds to lists of outputs. -/
theorem mem_added_assignPort {port : String} {given : Given} {entry : OutputList × Element} :
    entry ∈ (assignPort args wiring port given).added ↔
      entry ∈ wiring.added ∨
        (isArrayPort args.inputPorts port ∧ wiring.inputs.find port = some (.given (.listOf entry.1)) ∧
          entry.2 ∈ wiring.elements args given) := by
  unfold assignPort
  split_ifs with harray
  · split
    · rename_i hheld
      rw [hheld]
      simp [Wiring.hold]
    · rename_i hheld
      rw [hheld]
      simp [Wiring.hold]
    · rename_i list hheld
      obtain ⟨list', element⟩ := entry
      rw [hheld]
      simp only [mem_append, List.mem_map, Prod.mk.injEq, exists_eq_right_right, harray, true_and,
        Option.some.injEq, Held.given.injEq, Given.listOf.injEq]
      tauto
    · rename_i hheld
      rw [hheld]
      simp [Wiring.hold]
    · rename_i hlist _ hheld
      rw [hheld]
      have hne := hlist entry.1
      simp only [Wiring.hold, Option.some.injEq]
      tauto
  · simp [Wiring.hold, harray]

/-- The lists that edges add to are those that they extend. -/
theorem mem_added_iff (args : ResolveArgs) (edges : List GraphEdge) (list : OutputList) :
    list ∈ (wire args edges).added.map fst ↔
      ∃ before edge after, edges = before ++ edge :: after ∧ ExtendsAt args before edge list := by
  induction edges using reverseRecOn with
  | nil => simp [wire]
  | append_singleton edges edge ih =>
    have hstep : list ∈ (wire args (edges ++ [edge])).added.map fst ↔
        list ∈ (wire args edges).added.map fst ∨ ExtendsAt args edges edge list := by
      rw [wire_append_singleton]
      rcases target_cases edge with hnone | ⟨port, htarget, hport⟩
      · have hadded : (wireEdge args (wire args edges) edge).added = (wire args edges).added := by
          rw [wireEdge_of_no_target hnone]
          split
          · split <;> rfl
          · exact added_setDefaults _ _ _
        rw [hadded]
        refine (or_iff_left ?_).symm
        rintro ⟨port, htarget, hport, -⟩
        rw [htarget] at hnone
        exact absurd hnone (by simp [hport])
      · by_cases hbound : args.isBound port
        · rw [wireEdge_of_isBound htarget hport hbound]
          refine (or_iff_left ?_).symm
          rintro ⟨port', htarget', -, hfree, -⟩
          obtain rfl := Option.some.inj (htarget.symm.trans htarget')
          exact hfree hbound
        · rw [wireEdge_of_target htarget hport hbound]
          simp only [List.mem_map, mem_added_assignPort]
          constructor
          · rintro ⟨⟨list', element⟩, hmem | ⟨harray, hheld, hmem⟩, rfl⟩
            · exact .inl ⟨_, hmem, rfl⟩
            · exact .inr ⟨port, htarget, hport, hbound, harray, hheld, ne_nil_of_mem hmem⟩
          · rintro (⟨entry, hmem, rfl⟩ | ⟨port', htarget', -, -, harray, hheld, hitems⟩)
            · exact ⟨entry, .inl hmem, rfl⟩
            · obtain rfl := Option.some.inj (htarget.symm.trans htarget')
              obtain ⟨element, hmem⟩ := exists_mem_of_ne_nil _ hitems
              exact ⟨(list, element), .inr ⟨harray, hheld, hmem⟩, rfl⟩
    rw [hstep, ih]
    constructor
    · rintro (⟨before, first, after, rfl, hextends⟩ | hextends)
      · exact ⟨before, first, after ++ [edge], by simp, hextends⟩
      · exact ⟨edges, edge, [], rfl, hextends⟩
    · rintro ⟨before, first, after, hedges, hextends⟩
      rcases eq_nil_or_concat after with rfl | ⟨rest, last, rfl⟩
      · obtain ⟨rfl, hlast⟩ := append_inj' hedges rfl
        obtain rfl : edge = first := by simpa using hlast
        exact .inr hextends
      · rw [concat_eq_append, ← cons_append, ← append_assoc] at hedges
        obtain ⟨rfl, -⟩ := append_inj' hedges rfl
        exact .inl ⟨before, first, rest, rfl, hextends⟩

/-! ### What the lists hold in the end -/

namespace ResolveArgs

/-- What the incoming edges add to lists of outputs. -/
def added (args : ResolveArgs) : List (OutputList × Json) := (wire args args.incoming).addedValues args

/-- The arguments as the edges leave them. -/
def settled (args : ResolveArgs) : ResolveArgs := args.extend args.added

end ResolveArgs

theorem map_fst_addedValues (wiring : Wiring) :
    (wiring.addedValues args).map fst = wiring.added.map fst := by
  unfold Wiring.addedValues
  rw [Function.iterate_succ_apply']
  unfold Wiring.values
  rw [List.map_map]
  rfl

/-- A list grows exactly when an edge extends it. -/
theorem addedTo_added (args : ResolveArgs) (list : OutputList) :
    addedTo args.added list = [] ↔ ¬ Extends args list := by
  unfold addedTo Extends
  rw [← mem_added_iff, ← map_fst_addedValues, map_eq_nil_iff, filter_eq_nil_iff, List.mem_map, not_exists]
  refine forall_congr' fun entry ↦ ?_
  rw [not_and, decide_eq_true_eq]
  rfl

/-- When no list is extended, the outputs are as they were. -/
theorem settled_of_not_extends (h : ∀ list, ¬ Extends args list) : args.added = [] ∧ args.settled = args := by
  have hadded : args.added = [] := by
    cases hcons : args.added with
    | nil => rfl
    | cons entry rest =>
      have hsome := (addedTo_added args entry.1).mpr (h entry.1)
      rw [hcons] at hsome
      simp [addedTo] at hsome
  unfold ResolveArgs.settled
  rw [hadded, extend_nil]
  exact ⟨rfl, rfl⟩

/-- Nothing holds itself then. -/
theorem circular_of_not_extends (h : ∀ list, ¬ Extends args list) :
    (resolvePortsAndBindings args).circular = false := by
  have hadded := (settled_of_not_extends h).1
  have hnone : (wire args args.incoming).added = [] := by
    rw [← map_eq_nil_iff (f := fst), ← @map_fst_addedValues args, show
      (wire args args.incoming).addedValues args = [] from hadded, map_nil]
  change decide (Wiring.values args (wire args args.incoming) args.added ≠ args.added) = false
  rw [hadded, Wiring.values, hnone]
  rfl

/-- Edges without target ports extend no list. -/
theorem not_extends_of_no_target (h : ∀ edge ∈ args.incoming, edge.targetPort = none) (list : OutputList) :
    ¬ Extends args list := by
  rintro ⟨before, edge, after, hedges, port, htarget, -⟩
  rw [h edge (by simp [hedges])] at htarget
  cases htarget

theorem find_setDefaults (fields : JsonObject) (source port : String) (wiring : Wiring) :
    (fields.foldl (fun acc field ↦ acc.setDefault field.1 (.given (givenOf source field.1 field.2)))
      wiring).inputs.find port =
      (wiring.inputs.find port).or ((get fields port).map fun value ↦ .given (givenOf source port value)) := by
  induction fields generalizing wiring with
  | nil => rw [foldl_nil, get_nil, map_none, or_none]
  | cons field rest ih =>
    rw [foldl_cons, ih, get_cons, Wiring.setDefault, find_insertNew]
    by_cases hkey : port = field.1
    · subst hkey
      cases hfind : wiring.inputs.find field.1 <;> simp
    · rw [if_neg fun h ↦ hkey h.1, if_neg (Ne.symm hkey)]

end ContentGenerator.Workflows

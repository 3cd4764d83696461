import ContentGenerator.Workflows.SharedLists

/-!
# What the port resolver supplies under a name

The resolver writes a dictionary; a port reads one name of it. `ResolveArgs.supplied` is what a name holds after
the bindings and the edges, then the name-fill of a declared port, and the bag when no port is declared.
`get_resolvePortsAndBindings` says that this is what the dictionary holds.
-/

namespace ContentGenerator.Workflows

open Lib Lib.JsonObject Option KeyedTable

/-! ### One name through the stages -/

namespace ResolveArgs

/-- What bindings and edges leave under a name. -/
def mapped (args : ResolveArgs) (name : String) : Option Json :=
  ((wire args args.incoming).inputs.find name).map (Held.json args.settled)

def upstream (args : ResolveArgs) : List JsonObject := args.incoming.map fun edge ↦ args.outputOf edge.source

/-- The merged bag: initial inputs, trigger payload, and the outputs of the sources. -/
def mergedBag (args : ResolveArgs) : JsonObject :=
  mergeUpstreamBag args.triggerPayload args.initialInputs args.upstream

/-- What the name-fill finds for a port that is missing. -/
def portFill (args : ResolveArgs) (port : NodePort) : Option Json :=
  match get args.mergedBag port.name with
  | some value => some value
  | none =>
    if port.name = "payload" ∧ args.incoming.isEmpty then
      some (.obj (if args.triggerPayload.isEmpty then args.initialInputs else args.triggerPayload))
    else if port.name = "bag" then some (.obj args.mergedBag)
    else if port.dataType = "array" ∧ ¬ args.upstream.isEmpty ∧ port.name = "sources" then
      some (.arr (args.upstream.map Json.obj))
    else none

/-- What bindings, edges and the name-fill leave under a name. -/
def filled (args : ResolveArgs) (name : String) : Option Json :=
  args.inputPorts.foldl
    (fun held port ↦ if name = port.name then held.or (args.settled.portFill port) else held) (args.mapped name)

def supplied (args : ResolveArgs) (name : String) : Option Json :=
  if args.inputPorts.isEmpty then (args.filled name).or (get args.settled.mergedBag name) else args.filled name

end ResolveArgs

/-! ### The dictionary holds it -/

variable {args : ResolveArgs} {name : String}

/-- A fold over a dictionary and the fold over what it holds under a name. -/
theorem get_foldl {α : Type} {step : JsonObject → α → JsonObject} {valueStep : Option Json → α → Option Json}
    (hstep : ∀ acc a, get (step acc a) name = valueStep (get acc name) a) (items : List α)
    (d : JsonObject) : get (items.foldl step d) name = items.foldl valueStep (get d name) := by
  induction items generalizing d with
  | nil => rfl
  | cons a rest ih => rw [List.foldl_cons, List.foldl_cons, ih, hstep]

/-- A table read off as a dictionary. -/
theorem get_entries {V : Type} (t : KeyedTable String V) (f : V → Json) (name : String) :
    get (t.entries.map fun entry ↦ (entry.1, f entry.2)) name = (t.find name).map f := by
  unfold JsonObject.get KeyedTable.find
  rw [List.find?_map, Option.map_map, Option.map_map]
  rfl

theorem distinct_entries {V : Type} (t : KeyedTable String V) (f : V → Json) :
    Distinct (t.entries.map fun entry ↦ (entry.1, f entry.2)) := by
  unfold Distinct
  rw [List.map_map]
  exact t.nodupKeys

theorem get_fillPort (inputs : JsonObject) (port : NodePort) (name : String) :
    get (fillPort args args.mergedBag args.incoming args.upstream inputs port) name =
      if name = port.name then (get inputs name).or (args.portFill port) else get inputs name := by
  unfold fillPort
  by_cases hpresent : (get inputs port.name).isSome
  · rw [if_pos hpresent]
    split_ifs with hname
    · obtain ⟨held, hheld⟩ := isSome_iff_exists.mp hpresent
      rw [hname, hheld, some_or]
    · rfl
  · rw [if_neg hpresent]
    have hmissing : get inputs port.name = none := not_isSome_iff_eq_none.mp hpresent
    have hset : ∀ value, get (inputs.set port.name value) name =
        if name = port.name then (get inputs name).or (some value) else get inputs name := by
      intro value
      rw [get_set]
      split_ifs with hname
      · rw [hname, hmissing, none_or]
      · rfl
    unfold ResolveArgs.portFill
    cases get args.mergedBag port.name with
    | some value => exact hset value
    | none =>
      dsimp only
      by_cases hpayload : port.name = "payload" ∧ args.incoming.isEmpty
      · rw [if_pos hpayload, if_pos hpayload]
        exact hset _
      rw [if_neg hpayload, if_neg hpayload]
      by_cases hbag : port.name = "bag"
      · rw [if_pos hbag, if_pos hbag]
        exact hset _
      rw [if_neg hbag, if_neg hbag]
      by_cases hsources : port.dataType = "array" ∧ ¬ args.upstream.isEmpty ∧ port.name = "sources"
      · rw [if_pos hsources, if_pos hsources]
        exact hset _
      · rw [if_neg hsources, if_neg hsources, or_none, ite_self]

theorem distinct_fillPort (bag : JsonObject) (incoming : List GraphEdge) (upstream : List JsonObject)
    (inputs : JsonObject) (port : NodePort) (h : Distinct inputs) :
    Distinct (fillPort args bag incoming upstream inputs port) := by
  unfold fillPort
  by_cases hpresent : (get inputs port.name).isSome
  · rw [if_pos hpresent]
    exact h
  · rw [if_neg hpresent]
    cases get bag port.name with
    | some value => exact h.set _ _
    | none =>
      dsimp only
      split_ifs
      all_goals first | exact h.set _ _ | exact h

/-- The resolver holds under a name what it supplies under it. -/
theorem get_resolvePortsAndBindings (args : ResolveArgs) (name : String) :
    get (resolvePortsAndBindings args).inputs name = args.supplied name := by
  have hfilled : get (args.inputPorts.foldl
      (fillPort args args.settled.mergedBag args.settled.incoming args.settled.upstream)
      ((wire args args.incoming).inputs.entries.map fun entry ↦ (entry.1, entry.2.json args.settled))) name =
      args.filled name := by
    unfold ResolveArgs.filled ResolveArgs.mapped
    rw [← get_entries]
    exact get_foldl (fun acc port ↦ @get_fillPort args.settled acc port name) _ _
  have hdistinct : Distinct (args.inputPorts.foldl
      (fillPort args args.settled.mergedBag args.settled.incoming args.settled.upstream)
      ((wire args args.incoming).inputs.entries.map fun entry ↦ (entry.1, entry.2.json args.settled))) :=
    foldl_invariant (P := Distinct) (fun acc port _ hacc ↦ distinct_fillPort _ _ _ acc port hacc)
      (distinct_entries _ _)
  unfold resolvePortsAndBindings ResolveArgs.supplied
  dsimp only
  split_ifs
  · exact (get_update hdistinct _ _).trans (congrArg (Option.or · _) hfilled)
  · exact hfilled

end ContentGenerator.Workflows

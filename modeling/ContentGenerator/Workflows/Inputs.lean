import ContentGenerator.Workflows.Engine

/-!
# Resolving node inputs

The port and binding resolver of graphs with schema version 2 (`engine_inputs_ports.py`,
`engine_inputs_bag.py`): explicit bindings first, then the incoming edges, then the ports that are
still missing from the merged bag. It raises nothing.

The outputs are passed on as shallow copies, and an edge hands on the very lists of an output. An array
port extends the list that it holds in place, so a later edge changes the output itself and every other
input that holds the list. While the edges are applied an input therefore refers to the lists
(`Given.listOf`) and outputs (`Given.copyOf`) that it shares, and the values are read off in the end.
-/

namespace ContentGenerator.Workflows

open Lib

def mergeUpstreamBag (triggerPayload initialInputs : JsonObject) (upstream : List JsonObject) :
    JsonObject :=
  let bag := initialInputs.update triggerPayload
  let bag := bag.update (asDict (JsonObject.get triggerPayload "payload"))
  upstream.foldl JsonObject.update bag

/-- `path.split(".")`, on the characters of the path. -/
def splitDots : List Char → List Char → List String
  | part, [] => [String.ofList part.reverse]
  | part, c :: rest =>
    if c = '.' then String.ofList part.reverse :: splitDots [] rest else splitDots (c :: part) rest

/-- The loop of `lookup_dotted`. -/
def lookupParts : Json → List String → Json
  | current, [] => current
  | .obj fields, part :: rest =>
    match JsonObject.get fields part with
    | some value => lookupParts value rest
    | none => .null
  | _, _ :: _ => .null

/-- `lookup_dotted` with an optional path: without one the data itself. -/
def lookupDotted (data : JsonObject) (path : Option String) : Json :=
  match path.filter (· ≠ "") with
  | none => .obj data
  | some dotted => lookupParts (.obj data) (splitDots [] dotted.toList)

/-- `dict(node_outputs.get(source) or {})`. -/
def ResolveArgs.outputOf (args : ResolveArgs) (source : String) : JsonObject :=
  asDict (args.nodeOutputs.get source)

def resolveBinding (args : ResolveArgs) (binding : InputBinding) : Json :=
  match binding.source with
  | .constant => binding.value
  | .trigger => lookupDotted args.triggerPayload binding.path
  | .workflowInput => lookupDotted args.initialInputs binding.path
  | .context => lookupDotted args.runContext binding.path
  | .node =>
    match binding.nodeId.filter (· ≠ "") with
    | none => .null
    | some nodeId =>
      lookupDotted (args.outputOf nodeId) ((binding.path.filter (· ≠ "")).or binding.port)

/-! ### Edges -/

/-- What an edge hands to an input: a value that nothing extends, a list of an output, or a copy of an
output, which shares the lists of it. -/
inductive Given
  | value (value : Json)
  | listOf (list : OutputList)
  | copyOf (source : String)

def givenOf (source key : String) : Json → Given
  | .arr _ => .listOf ⟨source, key⟩
  | other => .value other

/-- An item of a list: a value, or a copy of an output. -/
inductive Element
  | value (value : Json)
  | copyOf (source : String)

/-- What an input holds while the edges are applied. -/
inductive Held
  | bound (binding : InputBinding)
  | given (given : Given)
  | ownList (items : List Element)

/-- The inputs while the edges are applied, and what has been added to the lists of outputs. -/
structure Wiring where
  inputs : KeyedTable String Held
  added : List (OutputList × Element) := []

namespace Wiring

def hold (wiring : Wiring) (name : String) (held : Held) : Wiring :=
  { wiring with inputs := wiring.inputs.put name held }

def setDefault (wiring : Wiring) (name : String) (held : Held) : Wiring :=
  { wiring with inputs := wiring.inputs.insertNew name held }

/-- The items of a list of an output at this moment. -/
def items (args : ResolveArgs) (wiring : Wiring) (list : OutputList) : List Element :=
  (match (args.outputOf list.source).get list.key with
    | some (.arr items) => items.map .value
    | _ => []) ++ (wiring.added.filter fun entry ↦ entry.1 = list).map Prod.snd

/-- `list(value)` of a list, `[value]` of anything else. -/
def elements (args : ResolveArgs) (wiring : Wiring) : Given → List Element
  | .value value => [.value value]
  | .listOf list => wiring.items args list
  | .copyOf source => [.copyOf source]

end Wiring

def isArrayPort (ports : List NodePort) (name : String) : Bool :=
  ports.any fun port ↦ port.name = name ∧ port.dataType = "array"

def assignPort (args : ResolveArgs) (wiring : Wiring) (portName : String) (given : Given) : Wiring :=
  if isArrayPort args.inputPorts portName then
    match wiring.inputs.find portName with
    | none | some (.given (.value .null)) =>
      wiring.hold portName (.ownList (wiring.elements args given))
    | some (.given (.listOf list)) =>
      { wiring with
        added := wiring.added ++ (wiring.elements args given).map fun element ↦ (list, element) }
    | some (.ownList items) => wiring.hold portName (.ownList (items ++ wiring.elements args given))
    | some _ => wiring.hold portName (.given given)
  else wiring.hold portName (.given given)

def applyEdge (args : ResolveArgs) (wiring : Wiring) (edge : GraphEdge) : Wiring :=
  let output := args.outputOf edge.source
  match edge.sourcePort.filter (· ≠ ""), edge.targetPort.filter (· ≠ "") with
  | some sport, some tport =>
    assignPort args wiring tport
      (((output.get sport).map (givenOf edge.source sport)).getD (.value .null))
  | none, some tport => assignPort args wiring tport (.copyOf edge.source)
  | some sport, none =>
    match output.get sport with
    | some value => wiring.hold sport (.given (givenOf edge.source sport value))
    | none => wiring
  | none, none =>
    output.foldl
      (fun acc field ↦ acc.setDefault field.1 (.given (givenOf edge.source field.1 field.2))) wiring

/-- One step of the loop over the incoming edges: an edge that names a bound port as its target is
passed over. -/
def wireEdge (args : ResolveArgs) (wiring : Wiring) (edge : GraphEdge) : Wiring :=
  if edge.targetPort.any fun port ↦ port ≠ "" ∧ port ∈ args.graphNode.inputBindings.map Prod.fst then wiring
  else applyEdge args wiring edge

/-- The inputs after the explicit bindings and the edges. -/
def wire (args : ResolveArgs) (edges : List GraphEdge) : Wiring :=
  edges.foldl (wireEdge args)
    { inputs := args.graphNode.inputBindings.foldl
        (fun acc entry ↦ acc.put entry.1 (.bound entry.2)) ⟨[], List.nodup_nil⟩ }

/-! ### Reading the values off -/

/-- A field of the snapshot, which shares the lists of the outputs. -/
def extendField (added : List (OutputList × Json)) (key : String) : Json → Json
  | .obj outputs => .obj (if key = "node_outputs" then extendOutputs added outputs else outputs)
  | other => other

/-- The arguments when the lists of the outputs have been extended. -/
def ResolveArgs.extend (args : ResolveArgs) (added : List (OutputList × Json)) : ResolveArgs :=
  { args with
    nodeOutputs := extendOutputs added args.nodeOutputs
    runContext := args.runContext.map fun field ↦ (field.1, extendField added field.1 field.2) }

def Element.json (args : ResolveArgs) : Element → Json
  | .value own => own
  | .copyOf source => .obj (args.outputOf source)

def Held.json (args : ResolveArgs) : Held → Json
  | .bound binding => resolveBinding args binding
  | .given (.value value) => value
  | .given (.listOf list) => ((args.outputOf list.source).get list.key).getD .null
  | .given (.copyOf source) => .obj (args.outputOf source)
  | .ownList items => .arr (items.map (Element.json args))

/-- The values that have been added, when the lists inside them have been extended by `added`. -/
def Wiring.values (args : ResolveArgs) (wiring : Wiring) (added : List (OutputList × Json)) :
    List (OutputList × Json) :=
  wiring.added.map fun entry ↦ (entry.1, entry.2.json (args.extend added))

/-- The values that have been added. An added copy holds lists that were extended themselves, so the values
settle after as many rounds as there are values, unless a list holds itself. -/
def Wiring.addedValues (args : ResolveArgs) (wiring : Wiring) : List (OutputList × Json) :=
  (wiring.values args)^[wiring.added.length + 1] []

/-! ### The resolver -/

def fillPort (args : ResolveArgs) (bag : JsonObject) (incoming : List GraphEdge)
    (upstream : List JsonObject) (inputs : JsonObject) (port : NodePort) : JsonObject :=
  if (inputs.get port.name).isSome then inputs
  else
    match bag.get port.name with
    | some value => inputs.set port.name value
    | none =>
      if port.name = "payload" ∧ incoming.isEmpty then
        inputs.set port.name (.obj
          (if args.triggerPayload.isEmpty then args.initialInputs else args.triggerPayload))
      else if port.name = "bag" then inputs.set port.name (.obj bag)
      else if port.dataType = "array" ∧ ¬ upstream.isEmpty ∧ port.name = "sources" then
        inputs.set port.name (.arr (upstream.map Json.obj))
      else inputs

def resolvePortsAndBindings (args : ResolveArgs) : ResolvedInputs :=
  let incoming := args.graph.predecessors args.graphNode.id
  let wiring := wire args incoming
  let added := wiring.addedValues args
  let after := args.extend added
  let upstream := incoming.map fun edge ↦ after.outputOf edge.source
  let bag := mergeUpstreamBag args.triggerPayload args.initialInputs upstream
  let mapped : JsonObject := wiring.inputs.entries.map fun entry ↦ (entry.1, entry.2.json after)
  let filled := args.inputPorts.foldl (fillPort args bag incoming upstream) mapped
  { inputs := if args.inputPorts.isEmpty then bag.update filled else filled
    added := added
    circular := wiring.values args added ≠ added }

/-- The environment of a run of `graph` over the catalogue of nodes, with the input resolution of
schema version 2, no mocks, and the default lease of 900 seconds. -/
def catalogueEnv (graph : WorkflowGraph) (globals : List String) : EngineEnv where
  graph := graph
  registry := catalogue
  runId := "run"
  globals := globals
  claimLease := 900000000
  render := fun _ ↦ ""
  isoFormat := fun _ ↦ ""
  parseResumeAt := fun _ ↦ none
  resolveNodeInputs := fun args ↦ .ok (resolvePortsAndBindings args)
  maybeMockNodeResult := fun _ _ _ ↦ none

/-- The execution of a claimed row whose implementation returns a result. -/
def execReturns (nodeId iterationKey : String) (token : ℕ) (result : NodeResult) : Op :=
  .execute { row := ⟨nodeId, iterationKey⟩, outcome := .ok result } token none 0

/-- The execution of a claimed row whose implementation succeeds. -/
def execSucceeds (nodeId iterationKey : String) (token : ℕ) (output : JsonObject) : Op :=
  execReturns nodeId iterationKey token { status := .succeeded, output := output }

end ContentGenerator.Workflows

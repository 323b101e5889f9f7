import RestWiring.Orchestration.Components

/-!
# Plans

A plan lists what a deployment does: for every component the sinks and functions to register and the
steps that wire the functions. Functions report their outcomes to one channel under their own
identity, and a function that is set off by another subscribes to that identity.
-/
namespace RestWiring

structure SinkPlan where
  kind : SinkKind
  spec : StorageSpec
  deriving BEq, Repr

def SinkPlan.toJson (s : SinkPlan) : Json :=
  .object [("kind", .string s.kind.text), ("spec", s.spec.toJson)]

inductive WiringStep where
  | ensureChannel (channel : String)
  | grantPublish (channel function : String)
  | notify (function channel : String) (params : NotifyParams)
  | subscribe (function : String) (trigger : TriggerSpec)
  deriving DecidableEq, Repr

def WiringStep.toJson : WiringStep → Json
  | .ensureChannel channel =>
    .object [("step", .string "ensure_channel"), ("channel", .string channel)]
  | .grantPublish channel function =>
    .object
      [("step", .string "grant_publish"), ("channel", .string channel), ("function", .string function)]
  | .notify function channel params =>
    .object
      [("step", .string "notify"), ("function", .string function), ("channel", .string channel),
       ("params", params.toJson)]
  | .subscribe function trigger =>
    .object
      [("step", .string "subscribe"), ("function", .string function), ("trigger", trigger.toJson)]

structure SubgraphPlan where
  index : Nat
  nodes : List String
  sinks : List SinkPlan
  functions : List String
  steps : List WiringStep
  deriving BEq, Repr

namespace SubgraphPlan

def toJson (p : SubgraphPlan) : Json :=
  .object
    [("index", .nat p.index), ("nodes", .strings p.nodes),
     ("sinks", .array (p.sinks.map (·.toJson))), ("functions", .strings p.functions),
     ("steps", .array (p.steps.map (·.toJson)))]

/-- An edge that triggers: the identities at its ends and its outcomes. -/
structure Triggering where
  start : String
  target : String
  on : List Outcome
  deriving DecidableEq, Repr

def uidOf (g : OrchestrationGraph) (start target name : String) : Except OrchestrationError String :=
  match g.node? name with
  | some node => .ok node.uid
  | none => .error (.missingNode start target name)

/-- The edges that trigger, in order, or the first edge that cannot be wired. -/
def triggering (index : Nat) (g : OrchestrationGraph) :
    List ((String × String) × EdgeParams) → Except OrchestrationError (List Triggering)
  | [] => .ok []
  | ((start, target), params) :: rest => do
    let startUid ← uidOf g start target start
    let targetUid ← uidOf g start target target
    if !params.triggers then triggering index g rest
    else if !g.directed then throw (.wiringConflict index (.undirectedTrigger start target))
    else if params.on.isEmpty then throw (.wiringConflict index (.noOutcome start target))
    else return ⟨startUid, targetUid, params.on⟩ :: (← triggering index g rest)

/-- The targets of the triggering edges that start at a node. -/
def targetsOf (g : OrchestrationGraph) (name : String) : List String :=
  (g.edges.entries.filter fun e => e.1.1 == name && e.2.triggers).map (·.1.2)

/-- Whether a visited node has been left again. -/
abbrev Marks := SortedMap String Bool

/-- Searches below nodes one after another, up to the first loop. -/
def searchAll (search : String → Marks → Option String × Marks) : List String → Marks → Option String × Marks
  | [], marks => (none, marks)
  | name :: names, marks =>
    match marks.find? name with
    | some false => (some name, marks)
    | some true => searchAll search names marks
    | none =>
      match search name marks with
      | (some found, marks) => (some found, marks)
      | (none, marks) => searchAll search names marks

/-- Searches depth first below a node for a node that is met again before it is left. Every level
marks a new node, so the number of nodes bounds the depth. -/
def search (g : OrchestrationGraph) : Nat → String → Marks → Option String × Marks
  | 0, _, marks => (none, marks)
  | fuel + 1, name, marks =>
    match searchAll (search g fuel) (targetsOf g name) (marks.insert name false) with
    | (some found, marks) => (some found, marks)
    | (none, marks) => (none, marks.insert name true)

/-- A node on a loop of triggering edges, the first that is found. -/
def triggerLoop? (g : OrchestrationGraph) : Option String :=
  (searchAll (search g (g.nodes.size + 1)) g.names ∅).1

/-- The sinks of a list of bindings, each kind and target once. -/
def sinksOf : List SinkBinding → SortedSet (SinkKind × String) → List SinkPlan
  | [], _ => []
  | s :: rest, seen =>
    if SortedMap.contains seen (s.kind, s.target) then sinksOf rest seen
    else ⟨s.kind, ⟨s.target, s.config⟩⟩ :: sinksOf rest (SortedSet.add seen (s.kind, s.target))

/-- What every function that sets off another reports. -/
def published (edges : List Triggering) : SortedMap String (SortedSet Outcome) :=
  edges.foldl (fun m e => m.alter e.start ∅ fun on => e.on.foldl SortedSet.add on) ∅

/-- The event attribute by which subscriptions tell reports apart. -/
def sourceAttribute : String := "source"

/-- The steps that wire a list of triggering edges. -/
def wiring (channel : String) (edges : List Triggering) : List WiringStep :=
  if edges.isEmpty then []
  else
    WiringStep.ensureChannel channel ::
      ((published edges).entries.flatMap fun (start, on) =>
        [.grantPublish channel start, .notify start channel ⟨SortedSet.members on, start⟩]) ++
      edges.map fun e =>
        .subscribe e.target ⟨e.on, .topic, channel, .ofList [(sourceAttribute, e.start)]⟩

/-- Plans one component. -/
def build (index : Nat) (g : OrchestrationGraph) (channel : String) :
    Except OrchestrationError SubgraphPlan := do
  let edges ← triggering index g g.edges.entries
  match triggerLoop? g with
  | some node => throw (.wiringConflict index (.loop node))
  | none =>
    return {
      index
      nodes := g.names
      sinks := sinksOf (g.nodes.values.flatMap (·.deployment.sinks)) ∅
      functions := g.nodes.values.map (·.uid)
      steps := wiring channel edges }

end SubgraphPlan

structure DeploymentPlan where
  channel : String
  subgraphs : List SubgraphPlan
  deriving BEq, Repr

namespace DeploymentPlan

def functionCount (p : DeploymentPlan) : Nat := (p.subgraphs.flatMap (·.functions)).length

def stepCount (p : DeploymentPlan) : Nat := (p.subgraphs.flatMap (·.steps)).length

def toJson (p : DeploymentPlan) : Json :=
  .object [("channel", .string p.channel), ("subgraphs", .array (p.subgraphs.map (·.toJson)))]

end DeploymentPlan

/-- The name of the topic that functions report to. -/
def completionChannel (namePart : String) : String := namePart ++ "-completion"

/-- The components with their indices and plans. -/
def OrchestrationGraph.planned (g : OrchestrationGraph) (channel : String) :
    List (Nat × OrchestrationGraph × Except OrchestrationError SubgraphPlan) :=
  g.components.zipIdx.map fun (component, index) =>
    (index, component, SubgraphPlan.build index component channel)

/-- Plans all components, or fails as the first that cannot be planned. -/
def OrchestrationGraph.plan (g : OrchestrationGraph) (channel : String) :
    Except OrchestrationError DeploymentPlan := do
  let subgraphs ← (g.planned channel).mapM fun p => p.2.2
  return { channel, subgraphs }

end RestWiring

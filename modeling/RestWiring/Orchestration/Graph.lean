import RestWiring.Code.CompilationError
import RestWiring.Stack.Registry

/-!
# Orchestration graphs

An `OrchestrationGraph` says which function runs after which. Nodes are functions under names, edges
say whether and on which outcomes the first function sets off the second. Neighbours are kept for both
directions, so that they can be looked up without a search through the edges. In an undirected graph
an edge is kept once, under its two names in order, and its ends are neighbours in both directions.
-/
namespace RestWiring

structure OrchestrationNode where
  name : String
  deployment : FunctionDeployment
  deriving BEq, Repr

namespace OrchestrationNode

/-- The identity under which the node's function is deployed. -/
def uid (n : OrchestrationNode) : String := n.deployment.uid

def toJson (n : OrchestrationNode) : Json :=
  .object [("name", .string n.name), ("deployment", n.deployment.toJson)]

end OrchestrationNode

structure EdgeParams where
  /-- Whether outcomes of the first function set off the second. -/
  triggers : Bool := true
  on : List Outcome := [.success]
  deriving DecidableEq, Repr

namespace EdgeParams

/-- Takes over whether the edge triggers, and adds the outcomes that are new. -/
def merge (p update : EdgeParams) : EdgeParams where
  triggers := update.triggers
  on := update.on.foldl Registry.appendNew p.on

def toJson (p : EdgeParams) : Json :=
  .object [("triggers", .bool p.triggers), ("on", Outcome.listJson p.on)]

def fields : List (Field Json.Reader EdgeParams) :=
  [.mandatory "triggers" Json.Reader.bool fun v p => { p with triggers := v },
   .mandatory "on" (.list Outcome.reader) fun v p => { p with on := v }]

def reader : Json.Reader EdgeParams := .record "EdgeParams" fields {}

end EdgeParams

inductive WiringConflict where
  | undirectedTrigger (start target : String)
  | noOutcome (start target : String)
  | loop (node : String)
  deriving DecidableEq, Repr

def WiringConflict.message : WiringConflict → String
  | .undirectedTrigger start target => "undirected edge " ++ start ++ " - " ++ target ++ " cannot trigger"
  | .noOutcome start target => "edge " ++ start ++ " -> " ++ target ++ " triggers on no outcome"
  | .loop node => "trigger edges loop through '" ++ node ++ "'"

inductive OrchestrationError where
  | missingNode (start target missing : String)
  | duplicateNode (name : String)
  | wiringConflict (subgraph : Nat) (reason : WiringConflict)
  | compilation (error : CompilationError)
  | executor (operation : String) (source : ExecutorError)
  /-- A task of a deployment ended without a report. -/
  | task
  | cancelled
  deriving DecidableEq, Repr

def OrchestrationError.message : OrchestrationError → String
  | .missingNode start target missing =>
    "edge " ++ start ++ " -> " ++ target ++ " references missing node '" ++ missing ++ "'"
  | .duplicateNode name => "duplicate orchestration node '" ++ name ++ "'"
  | .wiringConflict subgraph reason =>
    "conflicting wiring in subgraph " ++ toString subgraph ++ ": " ++ reason.message
  | .compilation error => error.message
  | .executor operation _ => "executor call '" ++ operation ++ "' failed"
  | .task => "deployment task failed: subgraph join error"
  | .cancelled => "deployment cancelled"

/-- The neighbours of every node in one direction. -/
abbrev Adjacency := SortedMap String (SortedSet String)

structure OrchestrationGraph where
  nodes : SortedMap String OrchestrationNode := ∅
  edges : SortedMap (String × String) EdgeParams := ∅
  /-- The nodes that come next after a node. -/
  successors : Adjacency := ∅
  /-- The nodes that come just before a node. -/
  predecessors : Adjacency := ∅
  directed : Bool := true
  deriving BEq

namespace OrchestrationGraph

def empty (directed : Bool) : OrchestrationGraph := { directed }

def node? (g : OrchestrationGraph) (name : String) : Option OrchestrationNode := g.nodes.find? name

def contains (g : OrchestrationGraph) (name : String) : Bool := g.nodes.contains name

def names (g : OrchestrationGraph) : List String := g.nodes.keys

/-- The names that are neighbours in one direction. -/
def neighbours (a : Adjacency) (name : String) : List String :=
  (a.find? name).elim [] SortedSet.members

/-- The key under which an edge is kept. -/
def edgeKey (g : OrchestrationGraph) (start target : String) : String × String :=
  if !g.directed && Key.before target start then (target, start) else (start, target)

/-- Makes two nodes neighbours in one direction. -/
def linkOnce (g : OrchestrationGraph) (start target : String) : OrchestrationGraph :=
  { g with
    successors := g.successors.alter start ∅ (SortedSet.add · target)
    predecessors := g.predecessors.alter target ∅ (SortedSet.add · start) }

def unlinkOnce (g : OrchestrationGraph) (start target : String) : OrchestrationGraph :=
  { g with
    successors := g.successors.modify start (SortedMap.erase · target)
    predecessors := g.predecessors.modify target (SortedMap.erase · start) }

/-- Makes the ends of an edge neighbours. -/
def link (g : OrchestrationGraph) (start target : String) : OrchestrationGraph :=
  if g.directed then g.linkOnce start target else (g.linkOnce start target).linkOnce target start

def unlink (g : OrchestrationGraph) (start target : String) : OrchestrationGraph :=
  if g.directed then g.unlinkOnce start target else (g.unlinkOnce start target).unlinkOnce target start

/-- Fails unless both ends of an edge are there. -/
def checkEnds (g : OrchestrationGraph) (start target : String) : Except OrchestrationError Unit :=
  if !g.contains start then .error (.missingNode start target start)
  else if !g.contains target then .error (.missingNode start target target)
  else .ok ()

def edge? (g : OrchestrationGraph) (start target : String) : Option EdgeParams :=
  g.edges.find? (g.edgeKey start target)

/-! ### Changes

Every change works on the graph step by step and says what it has come to. -/

/-- A change that may be refused. Where it is, the graph is left as it has been made so far. -/
abbrev Change := ExceptT OrchestrationError (StateM OrchestrationGraph)

namespace Change

/-- What a change says, and the graph that it leaves. -/
def on {α : Type} (change : StateM OrchestrationGraph α) (g : OrchestrationGraph) :
    α × OrchestrationGraph :=
  (change.run g).run

/-- Puts a node under its name and says that it is there now, unless the name is taken. -/
def insert (n : OrchestrationNode) : StateM OrchestrationGraph Bool := do
  if (← get).contains n.name then return false
  modify fun g => { g with
    successors := g.successors.alter n.name ∅ id
    predecessors := g.predecessors.alter n.name ∅ id }
  modify fun g => { g with nodes := g.nodes.insert n.name n }
  return true

/-- Takes a node out, if it is there, together with every edge at it. -/
def remove (name : String) : StateM OrchestrationGraph (Option OrchestrationNode) := do
  match (← get).nodes.find? name with
  | none => return none
  | some node =>
    modify fun g => { g with nodes := g.nodes.erase name }
    modify fun g => { g with edges := g.edges.filter fun e _ => e.1 != name && e.2 != name }
    modify fun g => { g with
      successors := (g.successors.erase name).map (SortedMap.erase · name)
      predecessors := (g.predecessors.erase name).map (SortedMap.erase · name) }
    return some node

/-- Puts an edge, in place of one that is there. -/
def addEdge (start target : String) (params : EdgeParams) : Change Unit := do
  (← get).checkEnds start target
  modify fun g => { g with edges := g.edges.insert (g.edgeKey start target) params }
  modify fun g => g.link start target

/-- Merges into an edge, or puts it if it is not there. -/
def updateEdge (start target : String) (params : EdgeParams) : Change Unit := do
  (← get).checkEnds start target
  match (← get).edge? start target with
  | some existing =>
    modify fun g => { g with edges := g.edges.insert (g.edgeKey start target) (existing.merge params) }
  | none =>
    modify fun g => { g with edges := g.edges.insert (g.edgeKey start target) params }
    modify fun g => g.link start target

/-- Takes an edge out, if it is there. -/
def removeEdge (start target : String) : StateM OrchestrationGraph (Option EdgeParams) := do
  match (← get).edge? start target with
  | none => return none
  | some params =>
    modify fun g => { g with edges := g.edges.erase (g.edgeKey start target) }
    modify fun g => g.unlink start target
    return some params

end Change

/-- The graph with a node under its name; `none` if the name is taken. -/
def insert? (g : OrchestrationGraph) (n : OrchestrationNode) : Option OrchestrationGraph :=
  match Change.on (Change.insert n) g with
  | (true, g) => some g
  | (false, _) => none

/-- A node and the graph without it; `none` if it is not there. -/
def remove? (g : OrchestrationGraph) (name : String) : Option (OrchestrationNode × OrchestrationGraph) :=
  match Change.on (Change.remove name) g with
  | (some node, g) => some (node, g)
  | (none, _) => none

/-- The graph that a change makes, unless it is refused. -/
def changed (g : OrchestrationGraph) (change : Change Unit) :
    Except OrchestrationError OrchestrationGraph :=
  match Change.on change.run g with
  | (.ok (), g) => .ok g
  | (.error e, _) => .error e

def addEdge (g : OrchestrationGraph) (start target : String) (params : EdgeParams) :
    Except OrchestrationError OrchestrationGraph :=
  g.changed (Change.addEdge start target params)

def updateEdge (g : OrchestrationGraph) (start target : String) (params : EdgeParams) :
    Except OrchestrationError OrchestrationGraph :=
  g.changed (Change.updateEdge start target params)

/-- The settings of an edge and the graph without it; `none` if it is not there. -/
def removeEdge? (g : OrchestrationGraph) (start target : String) : Option (EdgeParams × OrchestrationGraph) :=
  match Change.on (Change.removeEdge start target) g with
  | (some params, g) => some (params, g)
  | (none, _) => none

/-- The nodes that no edge leads to, in name order. -/
def roots (g : OrchestrationGraph) : List String :=
  g.names.filter fun name => (neighbours g.predecessors name).isEmpty

/-- The nodes of the given names with the edges between them. -/
def induced (g : OrchestrationGraph) (names : SortedSet String) : OrchestrationGraph :=
  let nodes := g.nodes.filter fun name _ => SortedMap.contains names name
  let edges := g.edges.filter fun e _ => SortedMap.contains names e.1 && SortedMap.contains names e.2
  let unlinked : OrchestrationGraph :=
    { nodes, edges, successors := nodes.map fun _ => ∅, predecessors := nodes.map fun _ => ∅,
      directed := g.directed }
  edges.keys.foldl (fun g e => g.link e.1 e.2) unlinked

end OrchestrationGraph

end RestWiring

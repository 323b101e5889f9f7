import RestWiring.Code.Compiler
import RestWiring.Orchestration.Graph

/-!
# From declarations to an orchestration graph

`orchestrate` compiles every unit of a resolution graph into a node. An endpoint runs before the
resolvers that read it, and a resolver before the endpoints whose parameters it supplies.
-/
namespace RestWiring

/-- Compiles units into nodes, in order, up to the first that cannot be added. -/
def addUnits (config : CompilerConfig) : List FunctionUnit → SortedSet String → OrchestrationGraph → FileStore →
    Except OrchestrationError OrchestrationGraph × FileStore
  | [], _, g, files => (.ok g, files)
  | unit :: units, uids, g, files =>
    if g.contains unit.qualified || SortedMap.contains uids unit.uid then
      (.error (.duplicateNode unit.qualified), files)
    else
      match config.compile files unit with
      | .error e => (.error (.compilation e), files)
      | .ok (deployment, files) =>
        addUnits config units (SortedSet.add uids unit.uid)
          ((g.insert? ⟨unit.qualified, deployment⟩).getD g) files

/-- The pairs of nodes of which the first runs before the second. -/
def dependencies (g : ResolutionGraph) : List (String × String) :=
  (g.resolvers.values.filterMap fun reader => reader.endpoint?.map fun source =>
    (Category.endpoint.qualify source.name, Category.resolver.qualify reader.name)) ++
  (g.endpoints.values.filter (·.isRelative)).flatMap fun target =>
    (ResolutionGraph.resolversFeeding target).map fun feeding =>
      (Category.resolver.qualify feeding.name, Category.endpoint.qualify target.name)

/-- Adds an edge with the usual settings for every pair. -/
def addEdges : List (String × String) → OrchestrationGraph → Except OrchestrationError OrchestrationGraph
  | [], g => .ok g
  | (start, target) :: rest, g => do
    let g ← g.addEdge start target {}
    addEdges rest g

/-- Compiles and connects all units; code is written to its files on the way. -/
def orchestrate (config : CompilerConfig) (g : ResolutionGraph) (files : FileStore) :
    Except OrchestrationError OrchestrationGraph × FileStore :=
  match addUnits config (FunctionUnit.collect g) ∅ {} files with
  | (.error e, files) => (.error e, files)
  | (.ok nodes, files) => (addEdges (dependencies g) nodes, files)

end RestWiring

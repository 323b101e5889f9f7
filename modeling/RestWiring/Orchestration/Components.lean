import RestWiring.Orchestration.Graph

/-!
# Components

The parts of a graph that no edge connects can be deployed on their own. `components` lists them:
first those with a root, in the order of their first roots, then the others in the order of their
first names.
-/
namespace RestWiring.OrchestrationGraph

/-- The neighbours of a node in both directions. -/
def around (g : OrchestrationGraph) (name : String) : List String :=
  neighbours g.successors name ++ neighbours g.predecessors name

/-- Queues the names that have not been visited. -/
def enqueue : List String → List String → SortedSet String → List String × SortedSet String
  | [], queue, visited => (queue, visited)
  | name :: names, queue, visited =>
    if SortedMap.contains visited name then enqueue names queue visited
    else enqueue names (queue ++ [name]) (SortedSet.add visited name)

/-- Visits what can be reached from a queue of visited names; answers what was visited in all and what
was found on this walk. A name is queued only once, so the number of nodes bounds the steps. -/
def walk (g : OrchestrationGraph) : Nat → List String → SortedSet String → SortedSet String →
    SortedSet String × SortedSet String
  | _, [], visited, found => (visited, found)
  | 0, _ :: _, visited, found => (visited, found)
  | fuel + 1, name :: queue, visited, found =>
    let (queue, visited) := enqueue (g.around name) queue visited
    g.walk fuel queue visited (SortedSet.add found name)

/-- Where walks begin: at the roots, then at the other nodes. -/
def seeds (g : OrchestrationGraph) : List String :=
  g.roots ++ g.names.filter fun name => !g.roots.contains name

/-- The names of every component that begins at one of the seeds and has not been visited. -/
def componentsFrom (g : OrchestrationGraph) : List String → SortedSet String → List (SortedSet String)
  | [], _ => []
  | seed :: seeds, visited =>
    if SortedMap.contains visited seed then g.componentsFrom seeds visited
    else
      let (visited, found) := g.walk g.nodes.size [seed] (SortedSet.add visited seed) ∅
      found :: g.componentsFrom seeds visited

/-- The parts of a graph that no edge connects. -/
def components (g : OrchestrationGraph) : List OrchestrationGraph :=
  (g.componentsFrom g.seeds ∅).map g.induced

/-- A traversal of the components of a graph. It walks one component at a time. -/
structure Traversal where
  graph : OrchestrationGraph
  seeds : List String
  /-- The seeds that the traversal has not come to. -/
  ahead : List String
  visited : SortedSet String

/-- The traversal that begins at the first seed. -/
def traversal (g : OrchestrationGraph) : Traversal where
  graph := g
  seeds := g.seeds
  ahead := g.seeds
  visited := ∅

namespace Traversal

/-- Skips the seeds that have been visited and walks from the first that has not. -/
def advance (t : Traversal) : List String → Option OrchestrationGraph × Traversal
  | [] => (none, { t with ahead := [] })
  | seed :: ahead =>
    if SortedMap.contains t.visited seed then t.advance ahead
    else
      let (visited, found) := t.graph.walk t.graph.nodes.size [seed] (SortedSet.add t.visited seed) ∅
      (some (t.graph.induced found), { t with ahead, visited })

/-- The next component; `none` if all have been visited. -/
def next (t : Traversal) : Option OrchestrationGraph × Traversal := t.advance t.ahead

/-- Starts over from the first seed. -/
def restart (t : Traversal) : Traversal := { t with ahead := t.seeds, visited := ∅ }

/-- The next components, up to a number of them. -/
def take : Nat → Traversal → List OrchestrationGraph × Traversal
  | 0, t => ([], t)
  | count + 1, t =>
    match t.next with
    | (none, t) => ([], t)
    | (some part, t) =>
      let (parts, t) := t.take count
      (part :: parts, t)

/-- All components to come. Each takes up a seed. -/
def rest (t : Traversal) : List OrchestrationGraph × Traversal := take t.ahead.length t

end Traversal

end RestWiring.OrchestrationGraph

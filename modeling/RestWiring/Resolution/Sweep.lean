import RestWiring.Resolution.Graph
import RestWiring.Resolution.Reference

/-!
# Resolving a template

Declarations are swept in the order of categories and names. A sweep places every declaration whose
references have all been placed, also those placed earlier in the same sweep; sweeps go on until
nothing is left or a sweep places nothing, which means that what is left waits for a cycle.
-/
namespace RestWiring

namespace ResolutionGraph

def lookup {α : Type} (m : SortedMap String α) (referrer target : String) : Except ResolutionError α :=
  match m.find? target with
  | some node => .ok node
  | none => .error (.missingReference referrer target)

/-- Builds one node out of nodes that are in the graph, and adds it. -/
def placeDeclared (g : ResolutionGraph) (name : String) : Declared → Except ResolutionError ResolutionGraph
  | .endpoint decl method shape => do
    let outputs ← decl.outputs.mapM (lookup g.outputs name)
    let location ← match shape with
      | .base url => Except.ok (Location.base url)
      | .relative base path params => do
        let base ← lookup g.endpoints name base
        let params ← params.mapM (lookup g.params name)
        Except.ok (Location.relative path base params)
    return (g.addEndpoint ⟨name, decl.description, method, decl.body, outputs, location⟩).2
  | .param decl => do
    let resolver ← lookup g.resolvers name decl.resolver
    return (g.addParam ⟨name, decl.description, decl.type, resolver⟩).2
  | .resolver decl shape => do
    let source ← match shape with
      | .endpoint e => do
        let endpoint ← lookup g.endpoints name e
        Except.ok (Source.endpoint endpoint decl.select)
      | .database connectionString table => Except.ok (Source.database connectionString table)
    return (g.addResolver ⟨name, decl.description, decl.authentication, source⟩).2
  | .output decl kind =>
    return (g.addOutput ⟨name, decl.description, kind, decl.target, decl.config⟩).2

end ResolutionGraph

/-- Whether a declaration refers to none of the pending ones. -/
def Declared.ready (d : Declared) (pending : List Ref) : Bool :=
  d.references.all fun r => !pending.contains r

/-- One sweep. `kept` are the declarations passed over so far, in order; the answer is what is still
pending and the graph with the rest in it. -/
def sweep (kept : List (Ref × Declared)) :
    List (Ref × Declared) → ResolutionGraph →
      Except ResolutionError (List (Ref × Declared) × ResolutionGraph)
  | [], g => .ok (kept, g)
  | (ref, declared) :: rest, g =>
    if declared.ready ((kept ++ (ref, declared) :: rest).map (·.1)) then do
      let g ← g.placeDeclared ref.2 declared
      sweep kept rest g
    else sweep (kept ++ [(ref, declared)]) rest g

/-- Sweeps until nothing is pending, and counts the sweeps. A sweep that places nothing is the last:
what is left then waits for itself. -/
def settle (pending : List (Ref × Declared)) (g : ResolutionGraph) (passes : Nat) :
    Except ResolutionError (ResolutionGraph × Nat) :=
  if pending.isEmpty then .ok (g, passes)
  else
    match sweep [] pending g with
    | .error e => .error e
    | .ok (left, g) =>
      if left.length < pending.length then settle left g (passes + 1)
      else .error (.cyclicDependency (left.map fun d => Ref.text d.1))
termination_by pending.length

namespace Template

/-- Resolves a template and tells how many sweeps it took. -/
def resolveWithPasses (t : Template) : Except ResolutionError (ResolutionGraph × Nat) := do
  let declared ← t.config.classify
  checkReferences (declared.map (·.1)) declared
  settle declared {} 0

def resolve (t : Template) : Except ResolutionError ResolutionGraph :=
  Prod.fst <$> t.resolveWithPasses

end Template

end RestWiring

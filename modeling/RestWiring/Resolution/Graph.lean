import RestWiring.Resolution.Node

/-!
# Resolution graphs

The resolved declarations of a template by category and name. Adding a declaration under a name that
is taken keeps the one that is there.
-/
namespace RestWiring

structure ResolutionGraph where
  endpoints : SortedMap String Endpoint := ∅
  params : SortedMap String Param := ∅
  resolvers : SortedMap String Resolver := ∅
  outputs : SortedMap String Output := ∅
  deriving BEq

namespace ResolutionGraph

/-- Keeps what is stored under a name, and puts what is new. -/
def place {α : Type} (m : SortedMap String α) (name : String) (node : α) : α × SortedMap String α :=
  match m.find? name with
  | some stored => (stored, m)
  | none => (node, m.insert name node)

def addEndpoint (g : ResolutionGraph) (e : Endpoint) : Endpoint × ResolutionGraph :=
  let (stored, endpoints) := place g.endpoints e.name e
  (stored, { g with endpoints })

def addParam (g : ResolutionGraph) (p : Param) : Param × ResolutionGraph :=
  let (stored, params) := place g.params p.name p
  (stored, { g with params })

def addResolver (g : ResolutionGraph) (r : Resolver) : Resolver × ResolutionGraph :=
  let (stored, resolvers) := place g.resolvers r.name r
  (stored, { g with resolvers })

def addOutput (g : ResolutionGraph) (o : Output) : Output × ResolutionGraph :=
  let (stored, outputs) := place g.outputs o.name o
  (stored, { g with outputs })

/-- The resolvers of a list of parameters, each name once, in the order of first use. -/
def resolversOf : List Param → List Resolver → List Resolver
  | [], feeding => feeding
  | p :: ps, feeding =>
    if feeding.any (·.name == p.resolver.name) then resolversOf ps feeding
    else resolversOf ps (feeding ++ [p.resolver])

/-- The resolvers that supply the parameters of an endpoint. -/
def resolversFeeding (e : Endpoint) : List Resolver := resolversOf e.params []

/-- The resolvers that read from the endpoint of a given name, in name order. -/
def resolversReading (g : ResolutionGraph) (endpoint : String) : List Resolver :=
  g.resolvers.values.filter fun r => r.endpoint?.any (·.name == endpoint)

def size (g : ResolutionGraph) : Nat :=
  g.endpoints.size + g.params.size + g.resolvers.size + g.outputs.size

end ResolutionGraph

end RestWiring

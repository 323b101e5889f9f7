import RestWiring.Resolution.Graph
import RestWiring.Resolution.Reference

/-!
# Function units

A unit is what becomes one deployed function: a call of an endpoint, or a resolver that turns what it
reads into values for parameters. `FunctionUnit.collect` lists the units of a resolution graph.
-/
namespace RestWiring

inductive FunctionUnit where
  /-- Calls an endpoint. `resolvers` supply its parameters; `authentication` holds the distinct
  descriptors of the resolvers that read it, of which a function can use at most one. -/
  | call (endpoint : Endpoint) (resolvers : List Resolver) (authentication : List Json)
  /-- Runs a resolver, which supplies the parameters in `feeds`. -/
  | supply (resolver : Resolver) (feeds : List String)

namespace FunctionUnit

def name : FunctionUnit → String
  | .call endpoint _ _ => endpoint.name
  | .supply resolver _ => resolver.name

def category : FunctionUnit → Category
  | .call .. => .endpoint
  | .supply .. => .resolver

/-- An endpoint and a resolver may share a name; their qualified names differ. -/
def qualified (u : FunctionUnit) : String := u.category.qualify u.name

/-- Keeps the first of equal values. -/
def distinct : List Json → List Json → List Json
  | [], kept => kept
  | j :: js, kept => if kept.contains j then distinct js kept else distinct js (kept ++ [j])

/-- Whether an endpoint only serves other endpoints as their base: it is then never called itself. -/
def isBaseOnly (g : ResolutionGraph) (e : Endpoint) : Bool :=
  !e.isRelative && g.endpoints.values.any (fun r => r.base?.any (·.name == e.name)) &&
    (g.resolversReading e.name).isEmpty && e.outputs.isEmpty

def ofEndpoint (g : ResolutionGraph) (e : Endpoint) : FunctionUnit :=
  .call e (ResolutionGraph.resolversFeeding e)
    (distinct ((g.resolversReading e.name).filterMap (·.authentication)) [])

def ofResolver (g : ResolutionGraph) (r : Resolver) : FunctionUnit :=
  .supply r ((g.params.values.filter (·.resolver.name == r.name)).map (·.name))

/-- All units: endpoints before resolvers, each in name order. -/
def collect (g : ResolutionGraph) : List FunctionUnit :=
  (g.endpoints.values.filter (!isBaseOnly g ·)).map (ofEndpoint g) ++
    g.resolvers.values.map (ofResolver g)

/-- Lower case; whatever is not a letter from a to z, a digit or a hyphen becomes a hyphen. -/
def uidChar (c : Char) : Char :=
  let c := Text.lowerChar c
  if ('a' ≤ c ∧ c ≤ 'z') ∨ ('0' ≤ c ∧ c ≤ '9') then c else '-'

/-- The identity that a function goes by once deployed. -/
def uidOf (name : String) : String := String.ofList (name.toList.map uidChar)

def uid (u : FunctionUnit) : String := uidOf u.qualified

end FunctionUnit

end RestWiring

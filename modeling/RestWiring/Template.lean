import RestWiring.Json

/-!
# Templates

A template declares endpoints, parameters, resolvers and outputs by name. Every reference to another
declaration is still a name and every kind still a word here; `RestWiring.Resolution` gives them
meaning.
-/
namespace RestWiring

/-- A use of parameters by an endpoint: a bare name, or names with settings for this use. -/
inductive ParamUse where
  | name (param : String)
  | keyed (settings : SortedMap String Json)
  deriving BEq, Repr

structure EndpointDecl where
  kind : String
  description : String := ""
  url : Option String := none
  base : Option String := none
  relative : Option String := none
  params : List ParamUse := []
  method : Option String := none
  body : Option Json := none
  outputs : List String := []
  deriving BEq, Repr

structure ParamDecl where
  type : String := "string"
  resolver : String
  description : String := ""
  deriving DecidableEq, Repr

structure ResolverDecl where
  kind : String
  description : String := ""
  endpoint : Option String := none
  select : Option String := none
  connectionString : Option String := none
  table : Option String := none
  authentication : Option Json := none
  deriving BEq, Repr

/-- An output; `config` holds every setting that is not one of the other fields. -/
structure OutputDecl where
  kind : String
  target : String
  description : String := ""
  config : SortedMap String Json := ∅
  deriving BEq, Repr

structure Metadata where
  name : String := ""
  tags : List String := []
  deriving DecidableEq, Repr

structure Declarations where
  endpoints : SortedMap String EndpointDecl := ∅
  params : SortedMap String ParamDecl := ∅
  resolvers : SortedMap String ResolverDecl := ∅
  outputs : SortedMap String OutputDecl := ∅
  deriving BEq, Repr

structure Template where
  version : String
  kind : String
  metadata : Metadata := {}
  config : Declarations
  deriving BEq, Repr

/-- The parameters that a use names, in order. -/
def ParamUse.names : ParamUse → List String
  | .name p => [p]
  | .keyed settings => settings.keys

/-- The parameters that an endpoint uses, in order. -/
def EndpointDecl.paramNames (e : EndpointDecl) : List String := e.params.flatMap (·.names)

namespace Template

/-- The name that messages use: the template's own, or its kind. -/
def name (t : Template) : String := if t.metadata.name.isEmpty then t.kind else t.metadata.name

def declarationCount (t : Template) : Nat :=
  t.config.endpoints.size + t.config.params.size + t.config.resolvers.size + t.config.outputs.size

end Template

end RestWiring

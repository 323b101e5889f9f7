import RestWiring.Template
import RestWiring.Resolution.Node

/-!
# What declarations mean and what they refer to

`classify` gives every declaration of a template its meaning or reports the first that has none;
`Declared.references` lists what a declaration refers to, in the order in which it is checked.
-/
namespace RestWiring

inductive Category where
  | endpoint | param | resolver | output
  deriving DecidableEq, Repr

namespace Category

def text : Category → String
  | .endpoint => "endpoint"
  | .param => "param"
  | .resolver => "resolver"
  | .output => "output"

def rank : Category → Nat
  | .endpoint => 0
  | .param => 1
  | .resolver => 2
  | .output => 3

instance : Key Category := Key.ofRank rank (by intro a b; cases a <;> cases b <;> simp [rank])

def all : List Category := [.endpoint, .param, .resolver, .output]

/-- A name together with its category, as messages and plans write it. -/
def qualify (c : Category) (name : String) : String := c.text ++ ":" ++ name

end Category

/-- A declaration is known by its category and its name. -/
abbrev Ref := Category × String

def Ref.text (r : Ref) : String := r.1.qualify r.2

inductive ResolutionError where
  | unknownKind (name kind : String)
  | missingReference (referrer target : String)
  | cyclicDependency (remaining : List String)
  | missingField (name field : String)
  | invalidMethod (name method : String)
  deriving DecidableEq, Repr

namespace ResolutionError

def message : ResolutionError → String
  | .unknownKind name kind => "'" ++ name ++ "' has unsupported kind '" ++ kind ++ "'"
  | .missingReference referrer target =>
    "'" ++ referrer ++ "' references '" ++ target ++ "', which is not declared"
  | .cyclicDependency remaining => "cyclic dependency between: " ++ ", ".intercalate remaining
  | .missingField name field => "'" ++ name ++ "' is missing required field '" ++ field ++ "'"
  | .invalidMethod name method => "'" ++ name ++ "' has unsupported method '" ++ method ++ "'"

/-- The declaration that an error is about. -/
def node? : ResolutionError → Option String
  | .unknownKind name _ | .missingField name _ | .invalidMethod name _ => some name
  | .missingReference referrer _ => some referrer
  | .cyclicDependency _ => none

end ResolutionError

inductive EndpointShape where
  | base (url : String)
  | relative (base path : String) (params : List String)
  deriving DecidableEq, Repr

inductive ResolverShape where
  | endpoint (endpoint : String)
  | database (connectionString table : String)
  deriving DecidableEq, Repr

/-- A declaration whose kind is known and whose required fields are there. -/
inductive Declared where
  | endpoint (decl : EndpointDecl) (method : Method) (shape : EndpointShape)
  | param (decl : ParamDecl)
  | resolver (decl : ResolverDecl) (shape : ResolverShape)
  | output (decl : OutputDecl) (kind : OutputKind)

def requireField (name field : String) (value : Option String) : Except ResolutionError String :=
  match value with
  | some v => .ok v
  | none => .error (.missingField name field)

def EndpointDecl.shape (name : String) (e : EndpointDecl) : Except ResolutionError EndpointShape :=
  if e.kind = "baseurl" then return .base (← requireField name "url" e.url)
  else if e.kind = "relativeurl" then do
    let base ← requireField name "base" e.base
    let path ← requireField name "relative" e.relative
    return .relative base path e.paramNames
  else .error (.unknownKind name e.kind)

def EndpointDecl.methodOf (name : String) (e : EndpointDecl) : Except ResolutionError Method :=
  match e.method with
  | none => .ok .get
  | some word =>
    match Method.ofText? word with
    | some m => .ok m
    | none => .error (.invalidMethod name word)

def EndpointDecl.classify (name : String) (e : EndpointDecl) : Except ResolutionError Declared := do
  let shape ← e.shape name
  let method ← e.methodOf name
  return .endpoint e method shape

def ResolverDecl.classify (name : String) (r : ResolverDecl) : Except ResolutionError Declared :=
  if r.kind = "EndpointResolver" then
    return .resolver r (.endpoint (← requireField name "endpoint" r.endpoint))
  else if r.kind = "DatabaseResolver" then do
    let connectionString ← requireField name "connectionstring" r.connectionString
    let table ← requireField name "table" r.table
    return .resolver r (.database connectionString table)
  else .error (.unknownKind name r.kind)

def OutputDecl.classify (name : String) (o : OutputDecl) : Except ResolutionError Declared :=
  match OutputKind.ofText? o.kind with
  | some kind => .ok (.output o kind)
  | none => .error (.unknownKind name o.kind)

/-- Classifies the declarations of one category in name order. -/
def classifyAll {α : Type} (category : Category) (classify : String → α → Except ResolutionError Declared) :
    List (String × α) → Except ResolutionError (List (Ref × Declared))
  | [] => .ok []
  | (name, decl) :: rest => do
    let declared ← classify name decl
    let others ← classifyAll category classify rest
    return ((category, name), declared) :: others

/-- All declarations in the order of categories and names, or the first that does not classify. -/
def Declarations.classify (c : Declarations) : Except ResolutionError (List (Ref × Declared)) := do
  let endpoints ← classifyAll .endpoint EndpointDecl.classify c.endpoints.entries
  let resolvers ← classifyAll .resolver ResolverDecl.classify c.resolvers.entries
  let outputs ← classifyAll .output OutputDecl.classify c.outputs.entries
  let params := c.params.entries.map fun (name, decl) => ((Category.param, name), Declared.param decl)
  return endpoints ++ params ++ resolvers ++ outputs

/-- What a declaration refers to: for an endpoint its base, then its parameters, then its outputs. -/
def Declared.references : Declared → List Ref
  | .endpoint decl _ (.base _) => decl.outputs.map (.output, ·)
  | .endpoint decl _ (.relative base _ params) =>
    (.endpoint, base) :: (params.map (.param, ·) ++ decl.outputs.map (.output, ·))
  | .param decl => [(.resolver, decl.resolver)]
  | .resolver _ (.endpoint e) => [(.endpoint, e)]
  | .resolver _ (.database ..) => []
  | .output .. => []

/-- Fails on the first reference to something that is not declared in its category. -/
def checkReferences (known : List Ref) : List (Ref × Declared) → Except ResolutionError Unit
  | [] => .ok ()
  | (referrer, declared) :: rest =>
    match declared.references.find? fun target => !known.contains target with
    | some target => .error (.missingReference referrer.2 target.2)
    | none => checkReferences known rest

end RestWiring

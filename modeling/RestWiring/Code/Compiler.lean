import RestWiring.Code.Tree
import RestWiring.FunctionDeployment
import RestWiring.FunctionUnit

/-!
# Compiling function units

`CompilerConfig.build` turns a unit into a tree of code, `render` into a function deployment, and
`compile` also writes the code into its file.
-/
namespace RestWiring

/-- How the resources of a function are estimated from its unit and its tree. -/
abbrev ResourceEstimator := FunctionUnit → CodeTree → DeploymentParams

/-- The same resources for every unit. -/
def ResourceEstimator.fixed (params : DeploymentParams) : ResourceEstimator := fun _ _ => params

structure CompilerConfig where
  /-- The folder under which code is written, one folder for each function. -/
  codeRoot : String
  runtime : String := "python3.12"
  /-- The name of the entry point in the code. -/
  handlerName : String := "handler"
  userAgent : String := "restmap/0.0.1"
  requestTimeoutMs : Nat := 500
  requestAttempts : Nat := 3
  /-- Values that win over the attributes of every part. -/
  overrides : SortedMap String Json := ∅
  stencils : StencilSet := StencilSet.standard
  estimator : ResourceEstimator := ResourceEstimator.fixed {}

namespace FunctionUnit

def requests : Requirement := ⟨"requests", some "2.32.3", ["requests"]⟩

def boto3 : Requirement := ⟨"boto3", some "1.35.0", ["boto3"]⟩

/-- The libraries that the code of a unit needs. -/
def requirements : FunctionUnit → List Requirement
  | .call endpoint _ _ => if endpoint.outputs.isEmpty then [requests] else [requests, boto3]
  | .supply resolver _ =>
    match resolver.source with
    | .endpoint .. => []
    | .database .. => [boto3]

/-- Appends the imports that are not there yet. -/
def addImports (imports : List String) (more : List String) : List String :=
  more.foldl (fun acc i => if acc.contains i then acc else acc ++ [i]) imports

def imports (u : FunctionUnit) : List String :=
  u.requirements.foldl (fun acc r => addImports acc r.imports) ["json", "os"]

/-- The sinks that a unit writes into. -/
def sinks : FunctionUnit → List SinkBinding
  | .call endpoint _ _ => endpoint.outputs.map fun o => ⟨o.name, o.kind.sink, o.target, o.config⟩
  | .supply .. => []

/-- The descriptor with which a unit authenticates itself. A resolver that reads an endpoint leaves
that to the endpoint's own function. -/
def descriptor? : FunctionUnit → Except CompilationError (Option Json)
  | .call _ _ [] => .ok none
  | .call _ _ [descriptor] => .ok (some descriptor)
  | .call endpoint _ descriptors =>
    .error (.invalidConfig endpoint.name (.conflictingDescriptors descriptors.length))
  | .supply resolver _ =>
    match resolver.source with
    | .database .. => .ok resolver.authentication
    | .endpoint .. => .ok none

end FunctionUnit

namespace CompilerConfig

/-- The parts under the entry point, with their labels. -/
def steps (c : CompilerConfig) (u : FunctionUnit) (authenticated : Bool) : List (String × CodePart) :=
  match u with
  | .call endpoint _ _ =>
    [("request", .request
        { method := endpoint.method, url := endpoint.url, authenticated,
          body := endpoint.body.map (·.compact), timeoutMs := c.requestTimeoutMs,
          attempts := c.requestAttempts }),
     ("body", .bodyReader "response.json()" "payload" [])] ++
    endpoint.outputs.map (fun o => ("loader:" ++ o.name, .loader o.target o.kind.sink "payload")) ++
    [("response", .response { returnVariable := "payload" })]
  | .supply resolver feeds =>
    let read : String × CodePart := match resolver.source with
      | .endpoint _ select =>
        ("body", .bodyReader "event.get(\"body\", \x7b\x7d)" "value" (keysOfPath select))
      | .database connectionString table =>
        ("read", .tableReader ⟨connectionString, table, "value", authenticated⟩)
    [read, ("response", .response { returnVariable := "value", params := feeds })]

/-- The tree of code for a unit. -/
def build (c : CompilerConfig) (u : FunctionUnit) : Except CompilationError CodeTree := do
  let tree := CodeTree.root u.name .module
  let tree := tree.attach 0 "header" (.header { imports := u.imports, userAgent := c.userAgent })
  let descriptor? ← u.descriptor?
  let tree := match descriptor? with
    | some descriptor => tree.attach 0 "authenticator" (.authenticator descriptor.compact)
    | none => tree
  let handler := tree.size
  let tree := tree.attach 0 "handler" (.handler c.handlerName 500)
  return (c.steps u descriptor?.isSome).foldl (fun t s => t.attach handler s.1 s.2) tree

def codeLocation (c : CompilerConfig) (uid : String) : String :=
  FilePath.join (FilePath.join c.codeRoot uid) "handler.py"

/-- Compiles a unit and writes nothing. -/
def render (c : CompilerConfig) (u : FunctionUnit) : Except CompilationError FunctionDeployment := do
  let tree ← c.build u
  let texts ← CodeTree.compileForest c.stencils c.overrides [tree.label] tree.children
  return {
    uid := u.uid
    code := CodeTree.separator.intercalate texts
    runtime := c.runtime
    requirements := u.requirements
    handler := "handler." ++ c.handlerName
    codeLocation := c.codeLocation u.uid
    params := c.estimator u tree
    sinks := u.sinks }

/-- Compiles a unit and writes the code to its location. -/
def compile (c : CompilerConfig) (files : FileStore) (u : FunctionUnit) :
    Except CompilationError (FunctionDeployment × FileStore) := do
  let deployment ← c.render u
  match files.write deployment.codeLocation deployment.code with
  | .ok files => return (deployment, files)
  | .error fault => throw (.unwritable deployment.codeLocation fault)

end CompilerConfig

end RestWiring

import RestWiring.Json.Reader
import RestWiring.Resolution.Node

/-!
# Function deployments

A function deployment is a finished function together with what it needs to run: libraries, resources
and the sinks that it writes into.
-/
namespace RestWiring

open Json (Reader)

def SinkKind.reader : Reader SinkKind := .word ["queue", "bucket", "table", "topic"] SinkKind.ofText?

/-- A library that the code of a function imports. -/
structure Requirement where
  library : String
  version : Option String
  imports : List String
  deriving DecidableEq, Repr

namespace Requirement

def toJson (r : Requirement) : Json :=
  .object <|
    [("library", .string r.library)] ++ Json.optional "version" (r.version.map .string) ++
    [("imports", .strings r.imports)]

def fields : List (Field Reader Requirement) :=
  [.mandatory "library" Reader.string fun v r => { r with library := v },
   .optional "version" (.option Reader.string) fun v r => { r with version := v },
   .mandatory "imports" (.list Reader.string) fun v r => { r with imports := v }]

def reader : Reader Requirement := .record "Requirement" fields ⟨"", none, []⟩

end Requirement

/-- A sink that a function writes into. -/
structure SinkBinding where
  name : String
  kind : SinkKind
  target : String
  config : SortedMap String Json := ∅
  deriving BEq, Repr

namespace SinkBinding

def toJson (s : SinkBinding) : Json :=
  .object <|
    [("name", .string s.name), ("kind", .string s.kind.text), ("target", .string s.target)] ++
    Json.omittedIf s.config.isEmpty "config" (.object s.config.entries)

def fields : List (Field Reader SinkBinding) :=
  [.mandatory "name" Reader.string fun v s => { s with name := v },
   .mandatory "kind" SinkKind.reader fun v s => { s with kind := v },
   .mandatory "target" Reader.string fun v s => { s with target := v },
   .optional "config" (.map Reader.any) fun v s => { s with config := v }]

def reader : Reader SinkBinding := .record "SinkBinding" fields ⟨"", .queue, "", ∅⟩

end SinkBinding

/-- Resources and settings that a function runs with. -/
structure DeploymentParams where
  minMemoryMb : Nat := 128
  maxMemoryMb : Nat := 256
  timeoutSecs : Nat := 300
  permissions : List String := ["table-reader"]
  envVariables : SortedMap String String := ∅
  tags : List String := []
  isMonitored : Bool := true
  isTraced : Bool := true
  concurrency : Nat := 10
  deriving DecidableEq, Repr

namespace DeploymentParams

def toJson (p : DeploymentParams) : Json :=
  .object
    [("min_memory_mb", .nat p.minMemoryMb), ("max_memory_mb", .nat p.maxMemoryMb),
     ("timeout_secs", .nat p.timeoutSecs), ("permissions", .strings p.permissions),
     ("env_variables", .object (p.envVariables.map Json.string).entries),
     ("tags", .strings p.tags), ("is_monitored", .bool p.isMonitored),
     ("is_traced", .bool p.isTraced), ("concurrency", .nat p.concurrency)]

def fields : List (Field Reader DeploymentParams) :=
  [.mandatory "min_memory_mb" (.natural 32) fun v p => { p with minMemoryMb := v },
   .mandatory "max_memory_mb" (.natural 32) fun v p => { p with maxMemoryMb := v },
   .mandatory "timeout_secs" (.natural 32) fun v p => { p with timeoutSecs := v },
   .mandatory "permissions" (.list Reader.string) fun v p => { p with permissions := v },
   .mandatory "env_variables" (.map Reader.string) fun v p => { p with envVariables := v },
   .mandatory "tags" (.list Reader.string) fun v p => { p with tags := v },
   .mandatory "is_monitored" Reader.bool fun v p => { p with isMonitored := v },
   .mandatory "is_traced" Reader.bool fun v p => { p with isTraced := v },
   .mandatory "concurrency" (.natural 32) fun v p => { p with concurrency := v }]

def reader : Reader DeploymentParams := .record "DeploymentParams" fields {}

end DeploymentParams

structure FunctionDeployment where
  uid : String
  code : String
  runtime : String
  requirements : List Requirement
  handler : String
  codeLocation : String
  params : DeploymentParams
  sinks : List SinkBinding
  deriving BEq, Repr

namespace FunctionDeployment

def toJson (f : FunctionDeployment) : Json :=
  .object <|
    [("uid", .string f.uid), ("code", .string f.code), ("runtime", .string f.runtime),
     ("requirements", .array (f.requirements.map (·.toJson))), ("handler", .string f.handler),
     ("code_location", .string f.codeLocation), ("params", f.params.toJson)] ++
    Json.omittedIf f.sinks.isEmpty "sinks" (.array (f.sinks.map (·.toJson)))

def fields : List (Field Reader FunctionDeployment) :=
  [.mandatory "uid" Reader.string fun v f => { f with uid := v },
   .mandatory "code" Reader.string fun v f => { f with code := v },
   .mandatory "runtime" Reader.string fun v f => { f with runtime := v },
   .mandatory "requirements" (.list Requirement.reader) fun v f => { f with requirements := v },
   .mandatory "handler" Reader.string fun v f => { f with handler := v },
   .mandatory "code_location" Reader.string fun v f => { f with codeLocation := v },
   .mandatory "params" DeploymentParams.reader fun v f => { f with params := v },
   .optional "sinks" (.list SinkBinding.reader) fun v f => { f with sinks := v }]

def reader : Reader FunctionDeployment :=
  .record "FunctionDeployment" fields ⟨"", "", "", [], "", "", {}, []⟩

end FunctionDeployment

end RestWiring

import RestWiring.CommandLine.Arguments
import RestWiring.Deployment.Deploy
import RestWiring.Orchestration.Derive
import RestWiring.Resolution.Sweep
import RestWiring.Template.Format

/-!
# The commands

`validate` resolves a template, `plan` also compiles it and plans its deployment, and `deploy`
deploys it on a backend that keeps its constructs in memory. A command reads and writes a
`FileStore`; what it prints, and how it ended, is its `Outcome`.
-/
namespace RestWiring.CommandLine

/-- Why a command failed, by the step that failed. -/
inductive CommandError where
  | load (path : String) (error : ParseError)
  | resolve (template : String) (error : ResolutionError)
  | compile (error : OrchestrationError)
  | plan (error : OrchestrationError)
  | unfinished (count total : Nat) (template : String)
  | apply (error : ExecutorError)
  deriving DecidableEq

namespace CommandError

def step : CommandError → String
  | .load path _ => "failed to load template: " ++ path
  | .resolve template _ => "failed to resolve template '" ++ template ++ "'"
  | .compile _ => "failed to compile template"
  | .plan _ => "failed to plan deployment"
  | .unfinished count total template =>
    toString count ++ " of " ++ toString total ++ " subgraphs of '" ++ template ++ "' did not deploy"
  | .apply _ => "failed to apply stack"

/-- The causes of a failure of orchestration, the nearest first. -/
def orchestrationCauses : OrchestrationError → List String
  | .compilation (.unwritable path fault) =>
    [(CompilationError.unwritable path fault).message, fault.message]
  | .executor operation source => [(OrchestrationError.executor operation source).message, source.message]
  | e => [e.message]

/-- The causes, the nearest first. -/
def causes : CommandError → List String
  | .load _ e =>
    match e with
    | .unreadable path fault => [(ParseError.unreadable path fault).message, fault.message]
    | .json (.shape fault) => [(ParseError.json (.shape fault)).message, fault.message]
    | e => [e.message]
  | .resolve _ e => [e.message]
  | .compile e | .plan e => orchestrationCauses e
  | .unfinished .. => []
  | .apply e => [e.message]

/-- Moves the lines behind the first one to the right. -/
def hanging (blanks : Nat) (text : String) : String :=
  String.ofList (text.toList.flatMap fun c => if c = '\n' then '\n' :: List.replicate blanks ' ' else [c])

/-- Causes, numbered if there are several. -/
def listed : List String → String
  | [] => ""
  | [cause] => "\n\nCaused by:\n    " ++ hanging 4 cause
  | causes =>
    "\n\nCaused by:" ++ String.join (causes.zipIdx.map fun (cause, i) =>
      let number := toString i
      "\n" ++ String.ofList (List.replicate (5 - number.length) ' ') ++ number ++ ": " ++ hanging 7 cause)

def message (e : CommandError) : String := "Error: " ++ e.step ++ listed e.causes ++ "\n"

end CommandError

/-- A template with its declarations resolved. -/
structure Loaded where
  template : Template
  graph : ResolutionGraph

def load (files : FileStore) (path : String) : Except CommandError Loaded := do
  let template ← (Template.load files path).mapError (.load path)
  let graph ← template.resolve.mapError (.resolve template.name)
  return { template, graph }

/-- How the code of a template is compiled into a data folder. -/
def compilerConfig (dataFolder : String) : CompilerConfig :=
  { codeRoot := FilePath.join dataFolder "functions" }

/-- The topic that deployed functions report to. -/
def channel : String := completionChannel "restmap"

/-- Loads a template and writes its code. -/
def compile (files : FileStore) (path dataFolder : String) :
    Except CommandError (Template × OrchestrationGraph) × FileStore :=
  match load files path with
  | .error e => (.error e, files)
  | .ok loaded =>
    match orchestrate (compilerConfig dataFolder) loaded.graph files with
    | (.error e, files) => (.error (.compile e), files)
    | (.ok g, files) => (.ok (loaded.template, g), files)

/-- What a template consists of, and the names of its functions. -/
structure Summary where
  name : String
  graph : ResolutionGraph

namespace Summary

def units (s : Summary) : List String := (FunctionUnit.collect s.graph).map (·.qualified)

def toJson (s : Summary) : Json :=
  .object
    [("endpoints", .nat s.graph.endpoints.size), ("name", .string s.name),
     ("outputs", .nat s.graph.outputs.size), ("params", .nat s.graph.params.size),
     ("resolvers", .nat s.graph.resolvers.size), ("units", .strings s.units)]

end Summary

def validate (files : FileStore) (path : String) : Except CommandError Summary := do
  let loaded ← load files path
  return { name := loaded.template.name, graph := loaded.graph }

def plan (files : FileStore) (path dataFolder : String) :
    Except CommandError (Template × DeploymentPlan) × FileStore :=
  match compile files path dataFolder with
  | (.error e, files) => (.error e, files)
  | (.ok (template, g), files) =>
    match g.plan channel with
    | .error e => (.error (.plan e), files)
    | .ok plan => (.ok (template, plan), files)

/-- What became of a deployment: its report, and the manifest that was applied or why none was. A dry
run applies none. -/
structure Deployed where
  template : Template
  report : DeploymentReport
  applied : Except CommandError (Option Manifest)

/-- Applies what a deployment has left in the backend. -/
def apply (template : Template) (report : DeploymentReport) (registry : Registry) :
    Except CommandError (Option Manifest) :=
  if !report.isSuccess then
    .error (.unfinished report.unfinished.length report.subgraphs.length template.name)
  else if report.dryRun then .ok none
  else match (registry.perform .deploy).1 with
    | .ok (.manifest manifest) => .ok (some manifest)
    | .ok _ => .ok none
    | .error e => .error (.apply e)

def deploy (files : FileStore) (path dataFolder deploymentId : String) (dryRun : Bool) :
    Except CommandError Deployed × FileStore :=
  match compile files path dataFolder with
  | (.error e, files) => (.error e, files)
  | (.ok (template, g), files) =>
    let (report, world, _) := RestWiring.deploy {} deploymentId dryRun channel g { registry := {} }
    (.ok { template, report, applied := apply template report world.registry }, files)

/-- What a call of the program prints, the code it ends with, and the files it leaves. -/
structure Outcome where
  exitCode : Nat := 0
  output : String := ""
  errors : String := ""
  files : FileStore

namespace Outcome

/-- A line on the standard output. -/
def printing (o : Outcome) (line : String) : Outcome := { o with output := o.output ++ line ++ "\n" }

/-- A line on the error output. -/
def noting (o : Outcome) (line : String) : Outcome := { o with errors := o.errors ++ line ++ "\n" }

def failing (o : Outcome) (e : CommandError) : Outcome :=
  { o with exitCode := 1, errors := o.errors ++ e.message }

end Outcome

def usage : String :=
  "Usage: restmap [--data-dir DIR] [--log-level LEVEL] [validate TEMPLATE | plan TEMPLATE | " ++
    "deploy TEMPLATE [--dry-run]]"

def Command.run (command : Command) (files : FileStore) (dataFolder deploymentId : String) : Outcome :=
  match command with
  | .validate path =>
    let start : Outcome := { files }
    match CommandLine.validate files path with
    | .error e => start.failing e
    | .ok summary =>
      (start.noting ("Template '" ++ summary.name ++ "' is valid")).printing summary.toJson.pretty
  | .plan path =>
    match CommandLine.plan files path dataFolder with
    | (.error e, files) => Outcome.failing { files } e
    | (.ok (template, planned), files) =>
      let note := "Planned '" ++ template.name ++ "': " ++ toString planned.functionCount ++
        " functions in " ++ toString planned.subgraphs.length ++ " subgraphs"
      (Outcome.noting { files } note).printing planned.toJson.pretty
  | .deploy path dryRun =>
    match CommandLine.deploy files path dataFolder deploymentId dryRun with
    | (.error e, files) => Outcome.failing { files } e
    | (.ok deployed, files) =>
      let printed := Outcome.printing { files } deployed.report.toJson.pretty
      match deployed.applied with
      | .error e => printed.failing e
      | .ok none => printed
      | .ok (some manifest) =>
        printed.noting ("Deployed '" ++ deployed.template.name ++ "': " ++
          toString manifest.size ++ " constructs")

/-- The folder that a call keeps its data in. -/
def Options.folder (o : Options) (home : String) : String :=
  o.dataFolder.getD (FilePath.join home ".restmap")

/-- A call of the program: the outcome for its arguments. -/
def run (args : List String) (files : FileStore) (home deploymentId : String) : Outcome :=
  match Invocation.ofArguments? args with
  | none => { exitCode := 2, errors := usage ++ "\n", files }
  | some .help => Outcome.printing { files } usage
  | some .version => Outcome.printing { files } "restmap 0.0.1-alpha.0"
  | some (.run none _) => Outcome.printing { files } "restmap - use --help to see available commands"
  | some (.run (some command) options) => command.run files (options.folder home) deploymentId

end RestWiring.CommandLine

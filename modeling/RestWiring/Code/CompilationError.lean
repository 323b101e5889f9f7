import RestWiring.FileStore
import RestWiring.Resolution.Node
import RestWiring.Stencil.Render
import RestWiring.Stencil.Parser

/-!
# Why code cannot be generated

A part of the code may be configured so that no working code can come of it, its stencil may fail, or
the finished code may not get into its file.
-/
namespace RestWiring

inductive InvalidConfig where
  | bodyRequired (method : Method)
  | noAttempts
  | noSteps
  | emptyTarget
  | conflictingDescriptors (count : Nat)
  deriving DecidableEq, Repr

def InvalidConfig.message : InvalidConfig → String
  | .bodyRequired method => method.text ++ " requires a request body"
  | .noAttempts => "retries must be at least 1"
  | .noSteps => "entry point has no steps"
  | .emptyTarget => "loader target is empty"
  | .conflictingDescriptors count =>
    "resolvers reading this endpoint carry " ++ toString count ++ " different authentication descriptors"

inductive StencilFailure where
  | unknown
  | unreadable (fault : Stencil.SyntaxFault)
  | stopped (fault : Stencil.FaultAt)
  deriving DecidableEq, Repr

def placeText (stencil : String) (line : Nat) : String :=
  " (in " ++ stencil ++ ":" ++ toString line ++ ")"

/-- What a message says of a failure of the stencil of a given name. -/
def StencilFailure.message (stencil : String) : StencilFailure → String
  | .unknown => "template not found: template " ++ Text.quoted stencil ++ " does not exist"
  | .unreadable fault => fault.message ++ placeText stencil fault.line
  | .stopped fault => fault.fault.message ++ placeText stencil fault.line

inductive CompilationError where
  | invalidConfig (node : String) (reason : InvalidConfig)
  | renderFailure (node stencil : String) (failure : StencilFailure)
  | unwritable (path : String) (fault : FileFault)
  deriving DecidableEq, Repr

namespace CompilationError

def message : CompilationError → String
  | .invalidConfig node reason => "invalid configuration for '" ++ node ++ "': " ++ reason.message
  | .renderFailure node stencil failure =>
    "failed to render '" ++ node ++ "' with template '" ++ stencil ++ "': " ++ failure.message stencil
  | .unwritable path fault => "failed to write function code to " ++ path ++ ": " ++ fault.message

/-- The part of the code that an error is about. -/
def node? : CompilationError → Option String
  | .invalidConfig node _ | .renderFailure node _ _ => some node
  | .unwritable .. => none

end CompilationError

end RestWiring

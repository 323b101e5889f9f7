import RestWiring.Code.CompilationError
import RestWiring.Code.Stencils

/-!
# Sets of stencils

Stencils go by names that look like paths. What a stencil sees is put together from the attributes of
a part, the texts of its children and overrides, of which the later win.
-/
namespace RestWiring

abbrev StencilSet := SortedMap String Stencil

namespace StencilSet

def headerName : String := "functions/aws/header.jinja"

def authenticatorName : String := "functions/aws/authenticator.jinja"

def handlerName : String := "functions/aws/handler.jinja"

def requestName : String := "functions/aws/request_handler.jinja"

def bodyReaderName : String := "functions/aws/body_parser.jinja"

def tableReaderName : String := "functions/aws/table_reader.jinja"

def loaderName : String := "functions/aws/loader.jinja"

def responseName : String := "functions/aws/response_handler.jinja"

/-- The stencils of all kinds of parts. -/
def standard : StencilSet :=
  .ofList
    [(headerName, CodeStencils.header), (authenticatorName, CodeStencils.authenticator),
     (handlerName, CodeStencils.handler), (requestName, CodeStencils.request),
     (bodyReaderName, CodeStencils.bodyReader), (tableReaderName, CodeStencils.tableReader),
     (loaderName, CodeStencils.loader), (responseName, CodeStencils.response)]

/-- Reads a stencil and puts it under a name, in place of one that is there. -/
def add (s : StencilSet) (name source : String) : Except CompilationError StencilSet :=
  match Stencil.ofText source with
  | .ok stencil => .ok (s.insert name stencil)
  | .error fault => .error (.renderFailure name name (.unreadable fault))

/-- Attributes by name; a value that is no object goes by the name `value`. -/
def attributeMembers : Json → List (String × Json)
  | .object members => members
  | j => [("value", j)]

/-- What the variables of a stencil hold. -/
def scope (attributes : Json) (children : List String) (overrides : SortedMap String Json) : Stencil.Scope :=
  let given := (SortedMap.ofList (attributeMembers attributes)).insert "children" (.strings children)
  (overrides.entries.foldl (fun given e => given.insert e.1 e.2) given).map Stencil.Value.ofJson

/-- Renders a stencil for a part, and drops the blanks at the end. -/
def render (s : StencilSet) (node name : String) (attributes : Json) (children : List String)
    (overrides : SortedMap String Json) : Except CompilationError String :=
  match s.find? name with
  | none => .error (.renderFailure node name .unknown)
  | some stencil =>
    match stencil.render (.ofName name) (scope attributes children overrides) with
    | .ok text => .ok (String.ofList (Text.trimEnd text))
    | .error fault => .error (.renderFailure node name (.stopped fault))

end StencilSet

end RestWiring

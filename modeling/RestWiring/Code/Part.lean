import RestWiring.Code.StencilSet

/-!
# Parts of generated code

A part is configured before it is rendered. `CodePart.attributes` is what its stencil sees;
`CodePart.check` refuses a configuration that cannot give working code.
-/
namespace RestWiring

/-- How a value is returned. -/
inductive ResponseType where
  | json | text
  deriving DecidableEq, Repr

namespace ResponseType

def word : ResponseType → String
  | .json => "json"
  | .text => "text"

def contentType : ResponseType → String
  | .json => "application/json"
  | .text => "text/plain"

end ResponseType

structure HeaderPart where
  imports : List String
  userAgent : String
  accept : String := "text/html, application/json"
  deriving DecidableEq, Repr

structure RequestPart where
  method : Method
  url : String
  authenticated : Bool
  responseType : ResponseType := .json
  responseVariable : String := "response"
  responseStatus : Nat := 200
  /-- The JSON text of the request body. -/
  body : Option String
  timeoutMs : Nat
  /-- How often the request is sent at most. -/
  attempts : Nat
  deriving DecidableEq, Repr

structure TableReaderPart where
  connectionString : String
  table : String
  variableName : String
  authenticated : Bool
  deriving DecidableEq, Repr

structure ResponsePart where
  returnType : ResponseType := .json
  returnVariable : String
  successCode : Nat := 200
  /-- The parameters under which the value is published. -/
  params : List String := []
  deriving DecidableEq, Repr

inductive CodePart where
  /-- The whole module; its text is that of its children. -/
  | module
  | header (part : HeaderPart)
  /-- Holds the JSON text of the descriptor. -/
  | authenticator (descriptor : String)
  | handler (name : String) (errorCode : Nat)
  | request (part : RequestPart)
  /-- Walks from the value of an expression along a path of keys. -/
  | bodyReader (source variableName : String) (path : List String)
  | tableReader (part : TableReaderPart)
  | loader (target : String) (sink : SinkKind) (source : String)
  | response (part : ResponsePart)
  deriving DecidableEq, Repr

/-- The keys of a dotted path; empty ones do not count. -/
def keysOfPath (path : Option String) : List String :=
  match path with
  | none => []
  | some p => ((Text.splitOn '.' p.toList).filter (!·.isEmpty)).map String.ofList

namespace CodePart

/-- The name of the stencil of a part. -/
def stencilName : CodePart → Option String
  | .module => none
  | .header _ => some StencilSet.headerName
  | .authenticator _ => some StencilSet.authenticatorName
  | .handler .. => some StencilSet.handlerName
  | .request _ => some StencilSet.requestName
  | .bodyReader .. => some StencilSet.bodyReaderName
  | .tableReader _ => some StencilSet.tableReaderName
  | .loader .. => some StencilSet.loaderName
  | .response _ => some StencilSet.responseName

def attributes : CodePart → Json
  | .module => .object []
  | .header p =>
    .object
      [("imports", .strings p.imports), ("user_agent", .string p.userAgent),
       ("accept", .string p.accept), ("accept_language", .string "en-US"),
       ("cache_control", .string "max-age=0")]
  | .authenticator descriptor => .object [("descriptor", .string descriptor)]
  | .handler name errorCode => .object [("name", .string name), ("error_code", .nat errorCode)]
  | .request p =>
    .object
      [("method", .string p.method.text), ("url", .string p.url),
       ("authenticated", .bool p.authenticated), ("response_type", .string p.responseType.word),
       ("response_variable", .string p.responseVariable), ("response_status", .nat p.responseStatus),
       ("request_body", (p.body.map Json.string).getD .null), ("timeout_ms", .nat p.timeoutMs),
       ("retries", .nat p.attempts)]
  | .bodyReader source name path =>
    .object [("source", .string source), ("variable", .string name), ("select", .strings path)]
  | .tableReader p =>
    .object
      [("connection_string", .string p.connectionString), ("table", .string p.table),
       ("variable", .string p.variableName), ("authenticated", .bool p.authenticated)]
  | .loader target sink source =>
    .object [("target", .string target), ("sink", .string sink.text), ("source_variable", .string source)]
  | .response p =>
    .object
      [("success_code", .nat p.successCode), ("error_code", .nat 500),
       ("return_type", .string p.returnType.word), ("return_variable", .string p.returnVariable),
       ("content_type", .string p.returnType.contentType), ("params", .strings p.params)]

/-- What is wrong with a part that has so many children. -/
def fault? (part : CodePart) (children : Nat) : Option InvalidConfig :=
  match part with
  | .request p =>
    if p.method.requiresBody ∧ p.body = none then some (.bodyRequired p.method)
    else if p.attempts = 0 then some .noAttempts
    else none
  | .handler .. => if children = 0 then some .noSteps else none
  | .loader target .. => if Text.isBlank target then some .emptyTarget else none
  | _ => none

/-- Refuses a part that is wrong; the path says which part it is. -/
def check (part : CodePart) (path : String) (children : Nat) : Except CompilationError Unit :=
  match part.fault? children with
  | some reason => .error (.invalidConfig path reason)
  | none => .ok ()

end CodePart

end RestWiring

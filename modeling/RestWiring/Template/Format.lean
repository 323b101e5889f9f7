import RestWiring.FileStore
import RestWiring.Json.Reader
import RestWiring.Template.Record
import RestWiring.Yaml.Reader

/-!
# Template files

A template is written as YAML or as JSON; the extension of its file says which.
-/
namespace RestWiring

inductive TemplateFormat where
  | yaml | json
  deriving DecidableEq, Repr

inductive ParseError where
  | unreadable (path : String) (fault : FileFault)
  | unsupportedFormat (extension : String)
  | yaml
  | json (fault : Json.ReadFault)
  deriving DecidableEq, Repr

def ParseError.message : ParseError → String
  | .unreadable path fault => "failed to read template " ++ path ++ ": " ++ fault.message
  | .unsupportedFormat extension => "unsupported template format: ." ++ extension
  | .yaml => "malformed YAML template"
  | .json (.shape fault) => "malformed JSON template: " ++ fault.message
  | .json .form => "malformed JSON template"

namespace Template

def ofJsonText (source : String) : Except Json.ReadFault Template :=
  (reader : Json.Reader Template).ofText source

def ofYamlText? (source : String) : Option Template :=
  (reader : Yaml.Reader Template).ofText? source

end Template

namespace TemplateFormat

def text : TemplateFormat → String
  | .yaml => "yaml"
  | .json => "json"

/-- The format that a path stands for: YAML if the path has no extension. -/
def ofPath (path : String) : Except ParseError TemplateFormat :=
  match FilePath.extension? path with
  | none => .ok .yaml
  | some extension =>
    match Text.lower extension with
    | "yaml" | "yml" => .ok .yaml
    | "json" => .ok .json
    | other => .error (.unsupportedFormat other)

def parse (f : TemplateFormat) (source : String) : Except ParseError Template :=
  match f with
  | .yaml =>
    match Template.ofYamlText? source with
    | some t => .ok t
    | none => .error .yaml
  | .json => (Template.ofJsonText source).mapError .json

end TemplateFormat

/-- Reads a template from its file. -/
def Template.load (files : FileStore) (path : String) : Except ParseError Template := do
  let format ← TemplateFormat.ofPath path
  match files.read path with
  | .ok source => format.parse source
  | .error fault => throw (.unreadable path fault)

end RestWiring

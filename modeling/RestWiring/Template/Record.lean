import RestWiring.Record
import RestWiring.Template

/-!
# Templates as records

`Template.toJson` leaves out what is empty or absent, and `Template.reader` gives what is left out
its default, so a template survives being written and read. Settings of an output stand beside its
own fields. The reader serves every data format.
-/
namespace RestWiring

open DataFormat (text option list dictionary)

variable {R : Type → Type} [DataFormat R]

namespace ParamUse

def toJson : ParamUse → Json
  | .name p => .string p
  | .keyed settings => .object settings.entries

def reader : R ParamUse := DataFormat.textOrMap "ParamRef" .name .keyed

end ParamUse

namespace EndpointDecl

def toJson (e : EndpointDecl) : Json :=
  .object <|
    [("kind", .string e.kind)] ++
    Json.omittedIf e.description.isEmpty "description" (.string e.description) ++
    Json.optional "url" (e.url.map .string) ++
    Json.optional "base" (e.base.map .string) ++
    Json.optional "relative" (e.relative.map .string) ++
    Json.omittedIf e.params.isEmpty "params" (.array (e.params.map (·.toJson))) ++
    Json.optional "method" (e.method.map .string) ++
    Json.optional "body" e.body ++
    Json.omittedIf e.outputs.isEmpty "outputs" (.strings e.outputs)

def fields : List (Field R EndpointDecl) :=
  [.mandatory "kind" text fun v e => { e with kind := v },
   .optional "description" text fun v e => { e with description := v },
   .optional "url" (option text) fun v e => { e with url := v },
   .optional "base" (option text) fun v e => { e with base := v },
   .optional "relative" (option text) fun v e => { e with relative := v },
   .optional "params" (list ParamUse.reader) fun v e => { e with params := v },
   .optional "method" (option text) fun v e => { e with method := v },
   .optional "body" (option DataFormat.any) fun v e => { e with body := v },
   .optional "outputs" (list text) fun v e => { e with outputs := v }]

def reader : R EndpointDecl := DataFormat.record "EndpointDef" fields { kind := "" }

end EndpointDecl

namespace ParamDecl

def toJson (p : ParamDecl) : Json :=
  .object <|
    [("type", .string p.type), ("resolver", .string p.resolver)] ++
    Json.omittedIf p.description.isEmpty "description" (.string p.description)

def fields : List (Field R ParamDecl) :=
  [.optional "type" text fun v p => { p with type := v },
   .mandatory "resolver" text fun v p => { p with resolver := v },
   .optional "description" text fun v p => { p with description := v }]

def reader : R ParamDecl := DataFormat.record "ParamDef" fields { resolver := "" }

end ParamDecl

namespace ResolverDecl

def toJson (r : ResolverDecl) : Json :=
  .object <|
    [("kind", .string r.kind)] ++
    Json.omittedIf r.description.isEmpty "description" (.string r.description) ++
    Json.optional "endpoint" (r.endpoint.map .string) ++
    Json.optional "select" (r.select.map .string) ++
    Json.optional "connectionstring" (r.connectionString.map .string) ++
    Json.optional "table" (r.table.map .string) ++
    Json.optional "authentication" r.authentication

def fields : List (Field R ResolverDecl) :=
  [.mandatory "kind" text fun v r => { r with kind := v },
   .optional "description" text fun v r => { r with description := v },
   .optional "endpoint" (option text) fun v r => { r with endpoint := v },
   .optional "select" (option text) fun v r => { r with select := v },
   { Field.optional "connectionstring" (option text)
      fun v (r : ResolverDecl) => { r with connectionString := v } with
     aliases := ["connection_string"] },
   .optional "table" (option text) fun v r => { r with table := v },
   .optional "authentication" (option DataFormat.any) fun v r => { r with authentication := v }]

def reader : R ResolverDecl := DataFormat.record "ResolverDef" fields { kind := "" }

end ResolverDecl

namespace OutputDecl

def toJson (o : OutputDecl) : Json :=
  .object <|
    [("kind", .string o.kind), ("target", .string o.target)] ++
    Json.omittedIf o.description.isEmpty "description" (.string o.description) ++
    o.config.entries

def fields : List (Field R OutputDecl) :=
  [.mandatory "kind" text fun v o => { o with kind := v },
   .mandatory "target" text fun v o => { o with target := v },
   .optional "description" text fun v o => { o with description := v }]

def reader : R OutputDecl :=
  DataFormat.openRecord "OutputDef" fields (fun name v o => { o with config := o.config.insert name v })
    { kind := "", target := "" }

end OutputDecl

namespace Metadata

def toJson (m : Metadata) : Json :=
  .object <| [("name", .string m.name)] ++ Json.omittedIf m.tags.isEmpty "tags" (.strings m.tags)

def fields : List (Field R Metadata) :=
  [.optional "name" text fun v m => { m with name := v },
   .optional "tags" (list text) fun v m => { m with tags := v }]

def reader : R Metadata := DataFormat.record "Metadata" fields {}

end Metadata

namespace Declarations

def toJson (c : Declarations) : Json :=
  .object
    [("endpoints", .object (c.endpoints.map EndpointDecl.toJson).entries),
     ("params", .object (c.params.map ParamDecl.toJson).entries),
     ("resolvers", .object (c.resolvers.map ResolverDecl.toJson).entries),
     ("outputs", .object (c.outputs.map OutputDecl.toJson).entries)]

def fields : List (Field R Declarations) :=
  [.optional "endpoints" (dictionary EndpointDecl.reader) fun v c => { c with endpoints := v },
   .optional "params" (dictionary ParamDecl.reader) fun v c => { c with params := v },
   .optional "resolvers" (dictionary ResolverDecl.reader) fun v c => { c with resolvers := v },
   .optional "outputs" (dictionary OutputDecl.reader) fun v c => { c with outputs := v }]

def reader : R Declarations := DataFormat.record "ConfigDef" fields {}

end Declarations

namespace Template

def toJson (t : Template) : Json :=
  .object
    [("version", .string t.version), ("kind", .string t.kind),
     ("metadata", t.metadata.toJson), ("config", t.config.toJson)]

def fields : List (Field R Template) :=
  [.mandatory "version" text fun v t => { t with version := v },
   .mandatory "kind" text fun v t => { t with kind := v },
   .optional "metadata" Metadata.reader fun v t => { t with metadata := v },
   .mandatory "config" Declarations.reader fun v t => { t with config := v }]

def reader : R Template := DataFormat.record "TemplateDef" fields { version := "", kind := "", config := {} }

end Template

end RestWiring

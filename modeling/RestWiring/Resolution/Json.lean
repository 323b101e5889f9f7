import RestWiring.Resolution.Graph

/-!
# Resolution graphs as JSON

A node is written with its own fields, the names of its neighbours, and what follows from them.
-/
namespace RestWiring

open ResolutionGraph (resolversFeeding resolversReading)

def Endpoint.toJson (g : ResolutionGraph) (e : Endpoint) : Json :=
  .object
    [("name", .string e.name), ("description", .string e.description), ("method", .string e.method.text),
     ("body", e.body.getD .null), ("outputs", .strings (e.outputs.map (·.name))),
     ("kind", match e.location with
       | .base url => .object [("baseurl", .string url)]
       | .relative path base _ => .object [("relative", .string path), ("base", .string base.name)]),
     ("url", .string e.url), ("is_relative", .bool e.isRelative),
     ("params", .strings (e.params.map (·.name))),
     ("fed_by", .strings ((resolversFeeding e).map (·.name))),
     ("read_by", .strings ((resolversReading g e.name).map (·.name)))]

def Param.toJson (p : Param) : Json :=
  .object
    [("name", .string p.name), ("description", .string p.description), ("type", .string p.type),
     ("resolver", .string p.resolver.name)]

def Resolver.toJson (r : Resolver) : Json :=
  .object
    [("name", .string r.name), ("description", .string r.description),
     ("authentication", r.authentication.getD .null),
     ("kind", match r.source with
       | .endpoint e select =>
         .object [("endpoint", .string e.name), ("select", (select.map Json.string).getD .null)]
       | .database connectionString table =>
         .object [("connection_string", .string connectionString), ("table", .string table)]),
     ("reads", (r.endpoint?.map fun e => Json.string e.name).getD .null)]

def Output.toJson (o : Output) : Json :=
  .object
    [("name", .string o.name), ("description", .string o.description), ("kind", .string o.kind.text),
     ("sink", .string o.kind.sink.text), ("target", .string o.target),
     ("config", .object o.config.entries)]

/-- The nodes of every category in name order, and how many there are. -/
def ResolutionGraph.toJson (g : ResolutionGraph) : Json :=
  .object
    [("counts", .array ([g.endpoints.size, g.params.size, g.resolvers.size, g.outputs.size].map .nat)),
     ("len", .nat g.size), ("is_empty", .bool (g.size == 0)),
     ("endpoints", .array (g.endpoints.values.map (·.toJson g))),
     ("params", .array (g.params.values.map (·.toJson))),
     ("resolvers", .array (g.resolvers.values.map (·.toJson))),
     ("outputs", .array (g.outputs.values.map (·.toJson)))]

end RestWiring

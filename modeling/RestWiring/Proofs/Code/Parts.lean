import RestWiring.Proofs.Code.Trees
import RestWiring.Proofs.Stencil.Drawings

/-!
# The outlines of parts

A part can be sketched before the texts from outside are known: its stencil, and of every attribute
either its value or the holes that it fills. Every stencil of generated code can be drawn, whatever
the sketch of its part is, so what the part is compiled to has one outline, whatever the texts are.
The holes of the outline are the texts that the part takes, each once and in their order.
-/
namespace RestWiring

open Stencil

variable {ι : Type} {texts : ι → String}

/-! ## Attributes -/

theorem ofJson_strings (items : List String) :
    Value.ofJson (.strings items) = .list (items.map Value.text) := by
  suffices same : Value.ofItems (items.map Json.string) = items.map Value.text by
    rw [Json.strings, Value.ofJson, same]
  induction items with
  | nil => rfl
  | cons s items ih => rw [List.map_cons, Value.ofItems, ih]; rfl

/-- An attribute before the texts are known. -/
inductive Attribute (ι : Type) where
  | fixed (j : Json)
  /-- The text that fills a hole, perhaps one that is known not to be empty. -/
  | foreign (i : ι) (present : Bool)
  | foreigns (is : List ι)

namespace Attribute

def json (texts : ι → String) : Attribute ι → Json
  | .fixed j => j
  | .foreign i _ => .string (texts i)
  | .foreigns is => .strings (is.map texts)

/-- What is known of the value of an attribute. -/
def sketch : Attribute ι → Sketch ι
  | .fixed j => .fixed (.ofJson j)
  | .foreign i present => .foreign i present
  | .foreigns is => .foreigns is

/-- Whether a text of which it is said that it is not empty is not. -/
def IsProper (texts : ι → String) : Attribute ι → Prop
  | .foreign i true => texts i ≠ ""
  | _ => True

theorem sketch_holds {a : Attribute ι} (proper : a.IsProper texts) :
    a.sketch.Holds texts (.ofJson (a.json texts)) := by
  cases a with
  | fixed j => rfl
  | foreign i present =>
    cases present with
    | false => exact ⟨nofun, rfl⟩
    | true => exact ⟨fun _ => proper, rfl⟩
  | foreigns is => exact (ofJson_strings _).trans (congrArg Value.list List.map_map)

end Attribute

/-- The variables of a stencil hold the attributes, and one of them the texts of the children. -/
theorem StencilSet.find?_scope (members : List (String × Json)) (children : List String)
    (name : String) :
    (scope (.object members) children ∅).find? name =
      (if name = "children" then some (.strings children)
        else (SortedMap.ofList members).find? name).map Value.ofJson := by
  rw [← SortedMap.find?_insert]
  exact SortedMap.find?_map ..

namespace CodePart

/-- The stencil of a part. -/
def stencil? : CodePart → Option Stencil
  | .module => none
  | .header _ => some CodeStencils.header
  | .authenticator _ => some CodeStencils.authenticator
  | .handler .. => some CodeStencils.handler
  | .request _ => some CodeStencils.request
  | .bodyReader .. => some CodeStencils.bodyReader
  | .tableReader _ => some CodeStencils.tableReader
  | .loader .. => some CodeStencils.loader
  | .response _ => some CodeStencils.response

/-- The standard stencils hold the stencil of every part under its name, and it escapes nothing by
itself. -/
theorem stencil?_found {part : CodePart} {stencil : Stencil} (has : part.stencil? = some stencil) :
    ∃ name, part.stencilName = some name ∧ StencilSet.standard.find? name = some stencil ∧
      Escaping.ofName name = .off := by
  cases part with
  | module => cases has
  | _ =>
    cases has
    exact ⟨_, rfl, (SortedMap.find?_ofList (by decide)).mpr (by simp), by decide⟩

end CodePart

/-! ## Sketches -/

/-- A part before the texts are known. -/
structure PartSketch (ι : Type) where
  stencil : Stencil
  attributes : List (String × Attribute ι)
  apart : (attributes.map (·.1)).Nodup := by simp

namespace PartSketch

variable {s : PartSketch ι} {part : CodePart} {children : List (Outline ι)} {holes : List ι}

/-- What is known of the variables of the stencil, when the outlines of the children are known. -/
def knowledge (s : PartSketch ι) (children : List (Outline ι)) : Knowledge ι :=
  ("children", .codes children) :: s.attributes.map fun a => (a.1, a.2.sketch)

/-- What a part is compiled to, with holes for the texts. -/
def outline (s : PartSketch ι) (children : List (Outline ι)) : Outline ι :=
  Outline.trimEnd ((drawAll? (s.knowledge children) s.stencil).getD [])

/-- Whether a part can be drawn around its children, and which holes its outline then has. -/
def HasHoles (s : PartSketch ι) (children : List (Outline ι)) (holes : List ι) : Prop :=
  Draws (s.knowledge children) s.stencil holes

theorem HasHoles.holes_outline (drawn : s.HasHoles children holes) :
    (s.outline children).holes = holes := by
  obtain ⟨o, drawn, rfl⟩ := drawn
  rw [outline, drawn]
  exact o.holes_trimEnd

/-- Whether a part is what was sketched, now that the texts are known. -/
structure Fits (texts : ι → String) (s : PartSketch ι) (part : CodePart) : Prop where
  stencil : part.stencil? = some s.stencil
  attributes : part.attributes = .object (s.attributes.map fun a => (a.1, a.2.json texts))
  proper : ∀ a ∈ s.attributes, a.2.IsProper texts

/-- What the variables of a stencil hold is what is known of attributes and children. -/
theorem scope_agrees (proper : ∀ a ∈ s.attributes, a.2.IsProper texts)
    (children : List (Outline ι)) :
    Agrees texts (s.knowledge children)
      (StencilSet.scope (.object (s.attributes.map fun a => (a.1, a.2.json texts)))
        (children.map fun o => String.ofList (o.filled texts)) ∅) := by
  intro name sketch listed
  rw [knowledge, lookup_cons_eq] at listed
  rw [StencilSet.find?_scope]
  split at listed
  · rename_i same
    cases listed
    rw [if_pos same]
    exact (ofJson_strings _).trans (congrArg Value.list List.map_map)
  · rename_i differ
    obtain ⟨before, after, split, -⟩ := List.lookup_eq_some_iff.mp listed
    have member : (name, sketch) ∈ s.attributes.map fun a => (a.1, a.2.sketch) :=
      split ▸ List.mem_append_right before List.mem_cons_self
    obtain ⟨a, stated, equal⟩ := List.mem_map.mp member
    cases equal
    have found : (SortedMap.ofList (s.attributes.map fun a => (a.1, a.2.json texts))).find? a.1 =
        some (a.2.json texts) := by
      refine (SortedMap.find?_ofList ?_).mpr (List.mem_map.mpr ⟨a, stated, rfl⟩)
      rw [List.map_map]
      exact s.apart
    simpa only [if_neg differ, found, Option.map_some, Option.getD_some] using
      Attribute.sketch_holds (proper a stated)

/-- What a part is rendered to is its outline, with the holes filled. -/
theorem Fits.rendered (fits : s.Fits texts part) (drawn : s.HasHoles children holes)
    {node name text : String} (found : StencilSet.standard.find? name = some s.stencil)
    (escaping : Escaping.ofName name = .off)
    (success : StencilSet.standard.render node name part.attributes
      (children.map fun o => String.ofList (o.filled texts)) ∅ = .ok text) :
    text.toList = (s.outline children).filled texts := by
  obtain ⟨o, drawn, -⟩ := drawn
  simp only [StencilSet.render, found, escaping, fits.attributes] at success
  split at success
  · rename_i rendered
    cases success
    rw [String.toList_ofList, drawAll_filled (scope_agrees fits.proper children) _ drawn rendered,
      Outline.trimEnd_filled, outline, drawn]
    rfl
  · cases success

theorem Fits.compiled (fits : s.Fits texts part) (drawn : s.HasHoles children holes)
    {above : List String} {number : Nat} {label : String} {trees : List CodeTree} {text : String}
    (below : CodeTree.compileForest .standard ∅ (above ++ [label]) trees =
      .ok (children.map fun o => String.ofList (o.filled texts)))
    (success : CodeTree.compileAt .standard ∅ above (.node number label part trees) = .ok text) :
    text.toList = (s.outline children).filled texts := by
  obtain ⟨name, named, found, escaping⟩ := CodePart.stencil?_found fits.stencil
  obtain ⟨_, -, success⟩ := bind_success_iff.mp success
  simp only [below, named] at success
  exact fits.rendered drawn found escaping success

/-- Parts without children are compiled one by one. -/
theorem leaves_compiled {sketches : List (PartSketch ι)} {steps : List (String × CodePart)}
    (fits : List.Forall₂ (Fits texts) sketches (steps.map (·.2))) {holes : List (List ι)}
    (drawn : List.Forall₂ (fun s => s.HasHoles []) sketches holes) {above : List String}
    {first : Nat} {results : List String}
    (success : CodeTree.compileForest .standard ∅ above (CodeTree.leaves first steps) = .ok results) :
    results = sketches.map fun s => String.ofList ((s.outline []).filled texts) := by
  replace fits := List.forall₂_map_right_iff.mp fits
  induction fits generalizing first results holes with
  | nil =>
    cases success
    rfl
  | cons head _ ih =>
    cases drawn with
    | cons drawn others =>
      obtain ⟨text, first_compiled, success⟩ := bind_success_iff.mp success
      obtain ⟨results, compiled, equal⟩ := bind_success_iff.mp success
      cases equal
      rw [List.map_cons, ← ih others compiled, ← head.compiled drawn rfl first_compiled,
        String.ofList_toList]

/-! ## Parts -/

variable (texts)

def header (imports : List String) (userAgent : ι) : PartSketch ι where
  stencil := CodeStencils.header
  attributes :=
    [("imports", .fixed (.strings imports)), ("user_agent", .foreign userAgent false),
     ("accept", .fixed (.string "text/html, application/json")),
     ("accept_language", .fixed (.string "en-US")), ("cache_control", .fixed (.string "max-age=0"))]

theorem header_fits (imports : List String) (userAgent : ι) :
    (header imports userAgent).Fits texts (.header { imports, userAgent := texts userAgent }) :=
  ⟨rfl, rfl, by simp [header, Attribute.IsProper]⟩

theorem header_holes (imports : List String) (userAgent : ι) :
    (header imports userAgent).HasHoles [] [userAgent] := by
  refine .split 1 (.each rfl rfl rfl fun item member last => ?_) ⟨_, rfl, by simp⟩ rfl
  obtain ⟨v, -, rfl⟩ := List.mem_map.mp member
  exact ⟨_, rfl, by simp [Sketch.holes]⟩

def authenticator (descriptor : ι) : PartSketch ι where
  stencil := CodeStencils.authenticator
  attributes := [("descriptor", .foreign descriptor false)]

theorem authenticator_fits (descriptor : ι) :
    (authenticator descriptor).Fits texts (.authenticator (texts descriptor)) :=
  ⟨rfl, rfl, by simp [authenticator, Attribute.IsProper]⟩

theorem authenticator_holes (descriptor : ι) :
    (authenticator descriptor).HasHoles [] [descriptor] := by
  refine ⟨_, rfl, ?_⟩
  simp only [Outline.holes_append, Outline.holes_ofText]
  rfl

def handler (name : String) (errorCode : Nat) : PartSketch ι where
  stencil := CodeStencils.handler
  attributes := [("name", .fixed (.string name)), ("error_code", .fixed (.nat errorCode))]

theorem handler_fits (name : String) (errorCode : Nat) :
    (handler name errorCode).Fits texts (.handler name errorCode) :=
  ⟨rfl, rfl, by simp [handler, Attribute.IsProper]⟩

/-- The entry point has the holes of its steps. -/
theorem handler_holes (name : String) (errorCode : Nat) (steps : List (Outline ι)) :
    (handler name errorCode).HasHoles steps (steps.flatMap Outline.holes) := by
  refine .skip 3 ⟨_, rfl, by simp⟩ (.split 1 (.each rfl rfl rfl fun item member last => ?_)
    ⟨_, rfl, by simp⟩ (List.append_nil _))
  obtain ⟨o, -, rfl⟩ := List.mem_map.mp member
  exact ⟨_, rfl, by simp [Outline.holes_indented, Sketch.holes]⟩

def request (method : Method) (authenticated : Bool) (timeoutMs attempts : Nat) (url : ι)
    (body : Option ι) : PartSketch ι where
  stencil := CodeStencils.request
  attributes :=
    [("method", .fixed (.string method.text)), ("url", .foreign url false),
     ("authenticated", .fixed (.bool authenticated)), ("response_type", .fixed (.string "json")),
     ("response_variable", .fixed (.string "response")), ("response_status", .fixed (.nat 200)),
     ("request_body", body.elim (.fixed .null) (.foreign · true)),
     ("timeout_ms", .fixed (.nat timeoutMs)), ("retries", .fixed (.nat attempts))]

theorem request_fits (method : Method) (authenticated : Bool) (timeoutMs attempts : Nat) (url : ι)
    {body : Option ι} (nonempty : ∀ i ∈ body, texts i ≠ "") :
    (request method authenticated timeoutMs attempts url body).Fits texts
      (.request
        { method, url := texts url, authenticated, body := body.map texts, timeoutMs, attempts }) := by
  cases body with
  | none => exact ⟨rfl, rfl, by simp [request, Attribute.IsProper]⟩
  | some i => exact ⟨rfl, rfl, by simpa [request, Attribute.IsProper] using nonempty⟩

/-- It has to be known whether there is a body, but not what the body is. -/
theorem request_holes (method : Method) (authenticated : Bool) (timeoutMs attempts : Nat) (url : ι)
    (body : Option ι) :
    (request method authenticated timeoutMs attempts url body).HasHoles [] (url :: body.toList) := by
  let known := (request method authenticated timeoutMs attempts url body).knowledge []
  obtain ⟨sketch, sketched, decided⟩ : ∃ sketch, known.lookup "request_body" = some sketch ∧
      sketch.truth? = some body.isSome := by
    cases body <;> exact ⟨_, rfl, rfl⟩
  have start : Draws known (CodeStencils.request.take 3) [url] := ⟨_, rfl, by simp⟩
  have headers : Draws known ((CodeStencils.request.drop 3).take 1) [] := by
    refine .branch rfl rfl ?_
    cases authenticated <;> exact ⟨_, rfl, by simp⟩
  have shown : Draws known ((CodeStencils.request.drop 4).take 1) body.toList := by
    refine .branch sketched decided ?_
    cases body with
    | none => exact ⟨[], rfl, rfl⟩
    | some i => exact ⟨_, rfl, by simp⟩
  have sent : Draws known ((CodeStencils.request.drop 13).take 1) [] := by
    refine .branch sketched decided ?_
    cases body <;> exact ⟨_, rfl, by simp⟩
  have attempt : Draws known (CodeStencils.request.drop 5) [] :=
    .skip 8 ⟨_, rfl, by simp⟩ <| .skip 1 sent <| .skip 1 ⟨_, rfl, by simp⟩ <|
    .skip 1 (.binary _ _ rfl rfl) <| .skip 1 ⟨_, rfl, by simp⟩ <|
    .skip 1 (.binary _ _ rfl rfl) ⟨_, rfl, by simp⟩
  have rest : Draws known (CodeStencils.request.drop 4) body.toList :=
    .split 1 shown attempt (List.append_nil _)
  exact .split 3 start (.skip 1 headers rest) rfl

def bodyReader (source variableName : String) (keys : List ι) : PartSketch ι where
  stencil := CodeStencils.bodyReader
  attributes :=
    [("source", .fixed (.string source)), ("variable", .fixed (.string variableName)),
     ("select", .foreigns keys)]

theorem bodyReader_fits (source variableName : String) (keys : List ι) :
    (bodyReader source variableName keys).Fits texts
      (.bodyReader source variableName (keys.map texts)) :=
  ⟨rfl, rfl, by simp [bodyReader, Attribute.IsProper]⟩

theorem bodyReader_holes (source variableName : String) (keys : List ι) :
    (bodyReader source variableName keys).HasHoles [] keys := by
  refine .skip 4 ⟨_, rfl, by simp⟩ (.each rfl rfl rfl fun item member last => ?_)
  obtain ⟨key, -, rfl⟩ := List.mem_map.mp member
  exact ⟨_, rfl, by simp [Sketch.holes]⟩

def tableReader (variableName : String) (authenticated : Bool) (connectionString table : ι) :
    PartSketch ι where
  stencil := CodeStencils.tableReader
  attributes :=
    [("connection_string", .foreign connectionString false), ("table", .foreign table false),
     ("variable", .fixed (.string variableName)), ("authenticated", .fixed (.bool authenticated))]

theorem tableReader_fits (variableName : String) (authenticated : Bool)
    (connectionString table : ι) :
    (tableReader variableName authenticated connectionString table).Fits texts
      (.tableReader ⟨texts connectionString, texts table, variableName, authenticated⟩) :=
  ⟨rfl, rfl, by simp [tableReader, Attribute.IsProper]⟩

theorem tableReader_holes (variableName : String) (authenticated : Bool)
    (connectionString table : ι) :
    (tableReader variableName authenticated connectionString table).HasHoles []
      [connectionString, table] := by
  cases authenticated <;> exact ⟨_, rfl, by simp⟩

def loader (sink : SinkKind) (source : String) (target : ι) : PartSketch ι where
  stencil := CodeStencils.loader
  attributes :=
    [("target", .foreign target false), ("sink", .fixed (.string sink.text)),
     ("source_variable", .fixed (.string source))]

theorem loader_fits (sink : SinkKind) (source : String) (target : ι) :
    (loader sink source target).Fits texts (.loader (texts target) sink source) :=
  ⟨rfl, rfl, by simp [loader, Attribute.IsProper]⟩

theorem loader_holes (sink : SinkKind) (source : String) (target : ι) :
    (loader sink source target).HasHoles [] [target] := by
  cases sink <;> exact ⟨_, rfl, by simp⟩

def response (returnVariable : String) (params : List ι) : PartSketch ι where
  stencil := CodeStencils.response
  attributes :=
    [("success_code", .fixed (.nat 200)), ("error_code", .fixed (.nat 500)),
     ("return_type", .fixed (.string "json")), ("return_variable", .fixed (.string returnVariable)),
     ("content_type", .fixed (.string "application/json")), ("params", .foreigns params)]

theorem response_fits (returnVariable : String) (params : List ι) :
    (response returnVariable params).Fits texts
      (.response { returnVariable, params := params.map texts }) :=
  ⟨rfl, rfl, by simp [response, Attribute.IsProper]⟩

theorem response_holes (returnVariable : String) (params : List ι) :
    (response returnVariable params).HasHoles [] params := by
  refine .split 1 (.branch rfl rfl ?_) ⟨_, rfl, by simp⟩ (List.append_nil _)
  cases params with
  | nil => exact ⟨[], rfl, rfl⟩
  | cons =>
    refine .skip 2 ⟨_, rfl, by simp⟩ (.split 1 (.each rfl rfl rfl fun item member last => ?_)
      ⟨_, rfl, by simp⟩ (List.append_nil _))
    obtain ⟨param, -, rfl⟩ := List.mem_map.mp member
    cases last <;> exact ⟨_, rfl, by simp [Sketch.holes]⟩

end PartSketch

end RestWiring

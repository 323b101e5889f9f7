import RestWiring.Proofs.Code.Parts
import RestWiring.Proofs.Json.Values

/-!
# The skeletons of generated code

The shape of a unit says which parts its code has and how many texts each of them takes. Units of one
shape have code with one skeleton, in which every text that they take has its place, and nothing else
of them has one.
-/
namespace RestWiring

open Stencil (Outline IsLiteral literal)

/-! ## Shapes -/

/-- The places in generated code that texts fill. -/
inductive Hole where
  | userAgent
  | descriptor
  | url
  | body
  | target (n : Nat)
  | connectionString
  | table
  | key (n : Nat)
  | param (n : Nat)
  deriving DecidableEq, Repr

/-- What fills the holes. -/
abbrev Wording := Hole → String

/-- What of a unit the skeleton of its code depends on. -/
inductive UnitShape where
  | call (method : Method) (authenticated hasBody : Bool) (sinks : List SinkKind)
  /-- A resolver that reads an endpoint, along a path of so many keys. -/
  | select (keys feeds : Nat)
  /-- A resolver that reads a table. -/
  | scan (authenticated : Bool) (feeds : Nat)
  deriving DecidableEq, Repr

namespace UnitShape

def isAuthenticated : UnitShape → Bool
  | .call _ authenticated _ _ | .scan authenticated _ => authenticated
  | .select .. => false

def imports : UnitShape → List String
  | .call _ _ _ [] => ["json", "os", "requests"]
  | .call .. => ["json", "os", "requests", "boto3"]
  | .select .. => ["json", "os"]
  | .scan .. => ["json", "os", "boto3"]

/-- The holes in the code of a unit. -/
def holes (shape : UnitShape) : List Hole :=
  .userAgent :: (if shape.isAuthenticated then [.descriptor] else []) ++
    match shape with
    | .call _ _ hasBody sinks =>
      .url :: (if hasBody then [.body] else []) ++ (List.range sinks.length).map .target
    | .select keys feeds => (List.range keys).map .key ++ (List.range feeds).map .param
    | .scan _ feeds => .connectionString :: .table :: (List.range feeds).map .param

/-- The parts before the entry point. -/
def front (shape : UnitShape) : List (PartSketch Hole) :=
  .header shape.imports .userAgent ::
    if shape.isAuthenticated then [.authenticator .descriptor] else []

/-- A value is returned under the names of the parameters that it feeds. -/
def answer (feeds : Nat) : PartSketch Hole := .response "value" ((List.range feeds).map .param)

/-- The parts under the entry point. -/
def steps (timeoutMs attempts : Nat) : UnitShape → List (PartSketch Hole)
  | .call method authenticated hasBody sinks =>
    .request method authenticated timeoutMs attempts .url (if hasBody then some .body else none) ::
      .bodyReader "response.json()" "payload" [] ::
      sinks.zipIdx.map (fun s => .loader s.1 "payload" (.target s.2)) ++ [.response "payload" []]
  | .select keys feeds =>
    [.bodyReader "event.get(\"body\", \x7b\x7d)" "value" ((List.range keys).map .key), answer feeds]
  | .scan authenticated feeds =>
    [.tableReader "value" authenticated .connectionString .table, answer feeds]

/-- The code of a unit, with holes for its texts. -/
def skeleton (handlerName : String) (timeoutMs attempts : Nat) (shape : UnitShape) : Outline Hole :=
  let steps := (shape.steps timeoutMs attempts).map (·.outline [])
  List.intercalate (Outline.ofText CodeTree.separator)
    (shape.front.map (·.outline []) ++ [(PartSketch.handler handlerName 500).outline steps])

end UnitShape

namespace FunctionUnit

/-- The descriptor, if there is one. -/
def authentication? (u : FunctionUnit) : Option Json := u.descriptor?.toOption.join

/-- The body of the request, if there is one. -/
def body? : FunctionUnit → Option Json
  | .call endpoint _ _ => endpoint.body
  | .supply .. => none

def targets : FunctionUnit → List String
  | .call endpoint _ _ => endpoint.outputs.map (·.target)
  | .supply .. => []

/-- The keys along which a resolver walks. -/
def keys : FunctionUnit → List String
  | .call .. => []
  | .supply resolver _ =>
    match resolver.source with
    | .endpoint _ select => keysOfPath select
    | .database .. => []

def feeds : FunctionUnit → List String
  | .call .. => []
  | .supply _ feeds => feeds

def shape (u : FunctionUnit) : UnitShape :=
  match u with
  | .call endpoint _ _ =>
    .call endpoint.method u.authentication?.isSome u.body?.isSome (endpoint.outputs.map (·.kind.sink))
  | .supply resolver _ =>
    match resolver.source with
    | .endpoint .. => .select u.keys.length u.feeds.length
    | .database .. => .scan u.authentication?.isSome u.feeds.length

end FunctionUnit

/-- The texts of a unit and its configuration that come from outside. -/
def CompilerConfig.wording (c : CompilerConfig) (u : FunctionUnit) : Wording
  | .userAgent => c.userAgent
  | .descriptor => (u.authentication?.map (·.compact)).getD ""
  | .body => (u.body?.map (·.compact)).getD ""
  | .target n => u.targets[n]?.getD ""
  | .key n => u.keys[n]?.getD ""
  | .param n => u.feeds[n]?.getD ""
  | .url =>
    match u with
    | .call endpoint _ _ => endpoint.url
    | .supply .. => ""
  | .connectionString =>
    match u with
    | .supply ⟨_, _, _, .database connectionString _⟩ _ => connectionString
    | _ => ""
  | .table =>
    match u with
    | .supply ⟨_, _, _, .database _ table⟩ _ => table
    | _ => ""

/-! ## Parts of a shape -/

section

variable {c : CompilerConfig} {u : FunctionUnit} {descriptor? : Option Json}

/-- Holes that are filled one by one are filled by all items. -/
theorem map_holes {t : Wording} {hole : Nat → Hole} {items : List String}
    (wording : ∀ n, t (hole n) = items[n]?.getD "") :
    ((List.range items.length).map hole).map t = items :=
  List.ext_getElem (by simp) fun n _ inside => by simp [wording, List.getElem?_eq_getElem inside]

theorem authentication?_of_ok (found : u.descriptor? = .ok descriptor?) :
    u.authentication? = descriptor? := by
  rw [FunctionUnit.authentication?, found]
  cases descriptor? <;> rfl

theorem imports_eq (u : FunctionUnit) : u.imports = u.shape.imports := by
  match u with
  | .call endpoint _ _ =>
    cases outputs : endpoint.outputs <;>
      simp [FunctionUnit.imports, FunctionUnit.requirements, FunctionUnit.shape, UnitShape.imports,
        outputs] <;> rfl
  | .supply ⟨_, _, _, .endpoint ..⟩ _ | .supply ⟨_, _, _, .database ..⟩ _ => rfl

theorem shape_isAuthenticated (u : FunctionUnit) :
    u.shape.isAuthenticated = u.authentication?.isSome := by
  match u with
  | .call .. | .supply ⟨_, _, _, .endpoint ..⟩ _ | .supply ⟨_, _, _, .database ..⟩ _ => rfl

/-- Whether the parts are what was sketched. -/
abbrev AllFit (t : Wording) (sketches : List (PartSketch Hole)) (parts : List CodePart) : Prop :=
  List.Forall₂ (PartSketch.Fits t) sketches parts

theorem front_fits (found : u.descriptor? = .ok descriptor?) :
    AllFit (c.wording u) u.shape.front ((c.front u descriptor?).map (·.2)) := by
  have known := authentication?_of_ok found
  have header := PartSketch.header_fits (c.wording u) u.imports .userAgent
  rw [CompilerConfig.front, UnitShape.front, shape_isAuthenticated, ← imports_eq, known]
  cases descriptor? with
  | none => exact .cons header .nil
  | some descriptor =>
    have wording : c.wording u .descriptor = descriptor.compact := by
      rw [CompilerConfig.wording, known]
      rfl
    have authenticator := PartSketch.authenticator_fits (c.wording u) .descriptor
    rw [wording] at authenticator
    exact .cons header (.cons authenticator .nil)

/-- A unit feeds the parameters that the answer names. -/
theorem answer_fits (c : CompilerConfig) (u : FunctionUnit) :
    (UnitShape.answer u.feeds.length).Fits (c.wording u)
      (.response { returnVariable := "value", params := u.feeds }) := by
  have fits := PartSketch.response_fits (c.wording u) "value"
    ((List.range u.feeds.length).map .param)
  rw [map_holes fun _ => rfl] at fits
  exact fits

/-- A resolver walks along the keys that it reads. -/
theorem keys_fit (c : CompilerConfig) (u : FunctionUnit) (source : String) :
    (PartSketch.bodyReader source "value" ((List.range u.keys.length).map Hole.key)).Fits
      (c.wording u) (.bodyReader source "value" u.keys) := by
  have fits := PartSketch.bodyReader_fits (c.wording u) source "value"
    ((List.range u.keys.length).map .key)
  rw [map_holes fun _ => rfl] at fits
  exact fits

/-- The loaders take the targets one by one. -/
theorem loaders_fit (outputs : List Output) (t : Wording)
    (wording : ∀ n, t (.target n) = (outputs.map (·.target))[n]?.getD "") :
    AllFit t ((outputs.map (·.kind.sink)).zipIdx.map fun s => .loader s.1 "payload" (Hole.target s.2))
      (outputs.map fun o => .loader o.target o.kind.sink "payload") := by
  have same : outputs.map (fun o => CodePart.loader o.target o.kind.sink "payload") =
      (outputs.map (·.kind.sink)).zipIdx.map fun s => .loader (t (.target s.2)) s.1 "payload" := by
    refine List.ext_getElem (by simp) fun n _ inside => ?_
    simp only [List.length_map, List.length_zipIdx] at inside
    simp [wording, List.getElem?_eq_getElem inside]
  rw [same, AllFit, List.forall₂_map_left_iff, List.forall₂_map_right_iff, List.forall₂_same]
  exact fun s _ => PartSketch.loader_fits t s.1 "payload" (.target s.2)

/-- A call sends the text of its body, and that is not empty. -/
theorem request_fits (c : CompilerConfig) (u : FunctionUnit) (method : Method)
    (authenticated : Bool) (timeoutMs attempts : Nat) :
    (PartSketch.request method authenticated timeoutMs attempts .url
        (if u.body?.isSome then some Hole.body else none)).Fits (c.wording u)
      (.request
        { method, url := c.wording u .url, authenticated, body := u.body?.map (·.compact), timeoutMs
          attempts }) := by
  cases body : u.body? with
  | none =>
    have nonempty : ∀ hole ∈ (none : Option Hole), c.wording u hole ≠ "" := nofun
    exact PartSketch.request_fits _ method authenticated timeoutMs attempts .url nonempty
  | some j =>
    have wording : c.wording u .body = j.compact := by
      rw [CompilerConfig.wording, body]
      rfl
    have nonempty : ∀ hole ∈ some Hole.body, c.wording u hole ≠ "" := by
      rintro _ ⟨⟩ empty
      refine j.compactChars_ne_nil ?_
      rw [wording] at empty
      simpa [Json.compact] using empty
    have fits := PartSketch.request_fits _ method authenticated timeoutMs attempts .url nonempty
    rw [Option.map_some, wording] at fits
    exact fits

theorem steps_fit (found : u.descriptor? = .ok descriptor?) :
    AllFit (c.wording u) (u.shape.steps c.requestTimeoutMs c.requestAttempts)
      ((c.steps u descriptor?.isSome).map (·.2)) := by
  have known := authentication?_of_ok found
  match u with
  | .call endpoint resolvers descriptors =>
    let u : FunctionUnit := .call endpoint resolvers descriptors
    have request := request_fits c u endpoint.method descriptor?.isSome c.requestTimeoutMs
      c.requestAttempts
    have reader := PartSketch.bodyReader_fits (c.wording u) "response.json()" "payload" []
    have loaders := loaders_fit endpoint.outputs (c.wording u) fun _ => rfl
    have response := PartSketch.response_fits (c.wording u) "payload" []
    have all := List.Forall₂.cons request <| .cons reader <|
      List.rel_append loaders (.cons response .nil)
    simp only [CompilerConfig.steps, FunctionUnit.shape, known, UnitShape.steps, List.map_append,
      List.map_cons, List.map_nil, List.map_map]
    exact all
  | .supply ⟨_, _, _, .endpoint _ select⟩ feeds =>
    exact .cons (keys_fit ..) (.cons (answer_fits ..) .nil)
  | .supply ⟨_, _, _, .database connectionString table⟩ feeds =>
    simp only [CompilerConfig.steps, FunctionUnit.shape, known]
    exact .cons (PartSketch.tableReader_fits ..) (.cons (answer_fits ..) .nil)

end

/-! ## Skeletons -/

namespace UnitShape

/-- Whether parts can be drawn, and with which holes. -/
abbrev AllHave : List (PartSketch Hole) → List (List Hole) → Prop :=
  List.Forall₂ fun s => s.HasHoles []

/-- The holes in the parts before the entry point. -/
def frontHoles (shape : UnitShape) : List (List Hole) :=
  [.userAgent] :: if shape.isAuthenticated then [[.descriptor]] else []

/-- The holes in the parts under the entry point. -/
def stepHoles : UnitShape → List (List Hole)
  | .call _ _ hasBody sinks =>
    (.url :: (if hasBody then some Hole.body else none).toList) :: [] ::
      sinks.zipIdx.map (fun s => [.target s.2]) ++ [[]]
  | .select keys feeds => [(List.range keys).map .key, (List.range feeds).map .param]
  | .scan _ feeds => [[.connectionString, .table], (List.range feeds).map .param]

/-- Part by part, these are the holes in the code of a unit. -/
theorem holes_eq (shape : UnitShape) :
    shape.holes = (shape.frontHoles ++ shape.stepHoles).flatten := by
  cases shape with
  | call method authenticated hasBody sinks =>
    have targets : (sinks.zipIdx.map fun s => [Hole.target s.2]).flatten =
        (List.range sinks.length).map .target := by
      rw [List.range_eq_range', ← List.zipIdx_map_snd, List.map_map, ← List.flatMap_def,
        ← List.map_eq_flatMap]
      rfl
    cases authenticated <;> cases hasBody <;>
      simp [holes, frontHoles, stepHoles, isAuthenticated, targets]
  | select keys feeds => simp [holes, frontHoles, stepHoles, isAuthenticated]
  | scan authenticated feeds =>
    cases authenticated <;> simp [holes, frontHoles, stepHoles, isAuthenticated]

theorem front_have (shape : UnitShape) : AllHave shape.front shape.frontHoles := by
  rw [front, frontHoles]
  refine .cons (PartSketch.header_holes ..) ?_
  cases shape.isAuthenticated with
  | true => exact .cons (PartSketch.authenticator_holes _) .nil
  | false => exact .nil

theorem steps_have (timeoutMs attempts : Nat) (shape : UnitShape) :
    AllHave (shape.steps timeoutMs attempts) shape.stepHoles := by
  cases shape with
  | call method authenticated hasBody sinks =>
    have loaders : AllHave (sinks.zipIdx.map fun s => .loader s.1 "payload" (.target s.2))
        (sinks.zipIdx.map fun s => [.target s.2]) := by
      rw [AllHave, List.forall₂_map_left_iff, List.forall₂_map_right_iff, List.forall₂_same]
      exact fun s _ => PartSketch.loader_holes ..
    exact .cons (PartSketch.request_holes ..) <| .cons (PartSketch.bodyReader_holes ..) <|
      List.rel_append loaders (.cons (PartSketch.response_holes ..) .nil)
  | select keys feeds =>
    exact .cons (PartSketch.bodyReader_holes ..) (.cons (PartSketch.response_holes ..) .nil)
  | scan authenticated feeds =>
    exact .cons (PartSketch.tableReader_holes ..) (.cons (PartSketch.response_holes ..) .nil)

theorem AllHave.holes_outlines {sketches : List (PartSketch Hole)} {holes : List (List Hole)}
    (each : AllHave sketches holes) :
    (sketches.map (·.outline [])).flatMap Outline.holes = holes.flatten := by
  induction each with
  | nil => rfl
  | cons head _ ih =>
    rw [List.map_cons, List.flatMap_cons, ih, head.holes_outline, List.flatten_cons]

/-- The skeleton has each text of a unit as a hole, in order. -/
theorem holes_skeleton (handlerName : String) (timeoutMs attempts : Nat) (shape : UnitShape) :
    (shape.skeleton handlerName timeoutMs attempts).holes = shape.holes := by
  have handler := (PartSketch.handler_holes handlerName 500
    ((shape.steps timeoutMs attempts).map (·.outline []))).holes_outline
  rw [skeleton, Outline.ofText, Outline.holes_intercalate, List.flatMap_append,
    shape.front_have.holes_outlines, List.flatMap_singleton, handler,
    (shape.steps_have timeoutMs attempts).holes_outlines, ← List.flatten_append, holes_eq]

end UnitShape

/-- What besides the texts and the shape of a unit decides on its code. -/
structure CompilerConfig.Settings (c : CompilerConfig) (handlerName : String)
    (timeoutMs attempts : Nat) : Prop where
  stencils : c.stencils = .standard
  overrides : c.overrides = ∅
  handlerName : c.handlerName = handlerName
  timeoutMs : c.requestTimeoutMs = timeoutMs
  attempts : c.requestAttempts = attempts

namespace CompilerConfig

/-- The code of a unit is the code of the parts before the entry point and that of the entry point,
which is compiled around its steps. -/
theorem render_parts {c : CompilerConfig} {u : FunctionUnit} {d : FunctionDeployment}
    (success : c.render u = .ok d) :
    ∃ descriptor? first fronts steps text, u.descriptor? = .ok descriptor? ∧
      CodeTree.compileForest c.stencils c.overrides [u.name]
        (CodeTree.leaves 1 (c.front u descriptor?)) = .ok fronts ∧
      CodeTree.compileForest c.stencils c.overrides ([u.name] ++ ["handler"])
        (CodeTree.leaves (first + 1) (c.steps u descriptor?.isSome)) = .ok steps ∧
      CodeTree.compileAt c.stencils c.overrides [u.name]
        (.node first "handler" (.handler c.handlerName 500)
          (CodeTree.leaves (first + 1) (c.steps u descriptor?.isSome))) = .ok text ∧
      d.code = CodeTree.separator.intercalate (fronts ++ [text]) := by
  obtain ⟨tree, built, success⟩ := bind_success_iff.mp success
  obtain ⟨texts, compiled, equal⟩ := bind_success_iff.mp success
  cases equal
  obtain ⟨descriptor?, found, rfl⟩ := build_success built
  obtain ⟨fronts, lasts, fronts_compiled, lasts_compiled, rfl⟩ :=
    CodeTree.compileForest_append compiled
  obtain ⟨text, text_compiled, rest⟩ := bind_success_iff.mp lasts_compiled
  cases rest
  have inner := text_compiled
  obtain ⟨-, -, inner⟩ := bind_success_iff.mp inner
  obtain ⟨steps, steps_compiled, -⟩ := bind_success_iff.mp inner
  exact ⟨descriptor?, _, fronts, steps, text, found, fronts_compiled, steps_compiled,
    text_compiled, rfl⟩

/-- The code of a unit is the skeleton of its shape, filled with its texts. -/
theorem render_skeleton {c : CompilerConfig} {handlerName : String} {timeoutMs attempts : Nat}
    {u : FunctionUnit} {d : FunctionDeployment} (settings : c.Settings handlerName timeoutMs attempts)
    (success : c.render u = .ok d) :
    d.code.toList = (u.shape.skeleton handlerName timeoutMs attempts).filled (c.wording u) := by
  obtain ⟨descriptor?, first, fronts, texts, text, found, fronts_compiled, steps_compiled,
    compiled, code⟩ := render_parts success
  have steps_fit := steps_fit (c := c) found
  rw [settings.timeoutMs, settings.attempts] at steps_fit
  rw [settings.stencils, settings.overrides] at fronts_compiled steps_compiled compiled
  rw [settings.handlerName] at compiled
  have fronts_eq := PartSketch.leaves_compiled (front_fits found) u.shape.front_have fronts_compiled
  have steps_eq := PartSketch.leaves_compiled steps_fit (u.shape.steps_have timeoutMs attempts)
    steps_compiled
  have text_eq := (PartSketch.handler_fits (c.wording u) handlerName 500).compiled
    (PartSketch.handler_holes ..) (steps_compiled.trans (by rw [steps_eq, List.map_map]; rfl)) compiled
  rw [code, fronts_eq, UnitShape.skeleton, Outline.ofText, Outline.filled_intercalate,
    String.toList_intercalate, List.map_append, List.map_append, List.map_map, List.map_map,
    List.map_singleton, List.map_singleton, text_eq]
  refine congrArg (fun before => List.intercalate _ (before ++ [_])) ?_
  exact List.map_congr_left fun s _ => String.toList_ofList

end CompilerConfig

/-! ## Confinement -/

/-- The value of which the text fills a hole. -/
def FunctionUnit.value? (u : FunctionUnit) : Hole → Option Json
  | .body => u.body?
  | .descriptor => u.authentication?
  | _ => none

theorem CompilerConfig.wording_of_value? {u : FunctionUnit} {hole : Hole} {j : Json}
    (found : u.value? hole = some j) (c : CompilerConfig) : c.wording u hole = j.compact := by
  cases hole with
  | body | descriptor =>
    rw [wording]
    exact congrArg (fun value : Option Json => (value.map (·.compact)).getD "") found
  | _ => cases found

/-- Texts from outside cannot leave their places in generated code. All units of one shape have code
with one skeleton, which has each of their texts as a hole, in order, and whose holes are filled by
literals of the texts. Every literal stands in the code, and it stands for its text and for nothing
more. The texts of a body and a descriptor parse to what they were written from. -/
theorem CompilerConfig.code_confines_texts (handlerName : String) (timeoutMs attempts : Nat)
    (shape : UnitShape) :
    (shape.skeleton handlerName timeoutMs attempts).holes = shape.holes ∧
      ∀ (c : CompilerConfig) (u : FunctionUnit) (d : FunctionDeployment),
        c.Settings handlerName timeoutMs attempts → u.shape = shape → c.render u = .ok d →
          d.code.toList = (shape.skeleton handlerName timeoutMs attempts).filled (c.wording u) ∧
          (∀ hole ∈ shape.holes, literal (c.wording u hole) <:+: d.code.toList) ∧
          (∀ hole, IsLiteral (c.wording u hole) (literal (c.wording u hole))) ∧
          ∀ hole j, u.value? hole = some j → j.WellFormed →
            (∀ x, .double x ∈ j.numbers → x.ReadsBack) → Json.Parses (c.wording u hole) j := by
  have holes := shape.holes_skeleton handlerName timeoutMs attempts
  refine ⟨holes, fun c u d settings same success => ?_⟩
  subst same
  have code := render_skeleton settings success
  refine ⟨code, fun hole listed => ?_, fun hole => Stencil.literal_isLiteral _,
    fun hole j found wellFormed doubles => ?_⟩
  · rw [code]
    exact Outline.literal_infix _ (holes ▸ listed)
  · rw [wording_of_value? found c]
    exact wellFormed.parses doubles

def quotingBody : Json := .object [("n", .int 3), ("say", .string "\"</script>'\n\\")]

/-- A call whose texts would like to end their literals. -/
def quotingCall : FunctionUnit :=
  .call
    { name := "orders", description := "", method := .post, body := some quotingBody
      outputs := [⟨"log", "", .queue, "a\"); import os #", ∅⟩]
      location := .base "https://x/\"\n" }
    [] []

def quotingConfig : CompilerConfig := { codeRoot := "out", userAgent := "\\" }

/-- The code of the call, line by line. -/
def quotingLines : List String :=
  ["import json",
   "import os",
   "import requests",
   "import boto3",
   "",
   "HEADERS = \x7b",
   "    \"User-Agent\": \"\\\\\",",
   "    \"Accept\": \"text/html, application/json\",",
   "    \"Accept-Language\": \"en-US\",",
   "    \"Cache-Control\": \"max-age=0\",",
   "\x7d",
   "",
   "",
   "def handler(event, context):",
   "    try:",
   "        params = event.get(\"params\", \x7b\x7d)",
   "        url = \"https://x/\\\"\\n\".format(**params)",
   "        headers = dict(HEADERS)",
   "        body = json.loads(\"\x7b\\\"n\\\":3,\\\"say\\\":\\\"\\\\\\\"\\u003c/script\\u003e\\u0027\\\\n\\\\\\\\\\\"\x7d\")",
   "        response = None",
   "        for attempt in range(3):",
   "            try:",
   "                response = requests.request(",
   "                    \"POST\",",
   "                    url,",
   "                    headers=headers,",
   "                    json=body,",
   "                    timeout=0.5,",
   "                )",
   "                break",
   "            except requests.RequestException:",
   "                if attempt == 2:",
   "                    raise",
   "        if response.status_code != 200:",
   "            raise RuntimeError(\"POST \" + url + \" returned \" + str(response.status_code))",
   "        payload = response.json()",
   "        sqs = boto3.client(\"sqs\")",
   "        sqs.send_message(",
   "            QueueUrl=sqs.get_queue_url(QueueName=\"a\\\"); import os #\")[\"QueueUrl\"],",
   "            MessageBody=json.dumps(payload),",
   "        )",
   "        return \x7b",
   "            \"statusCode\": 200,",
   "            \"headers\": \x7b\"Content-Type\": \"application/json\"\x7d,",
   "            \"body\": json.dumps(payload),",
   "        \x7d",
   "    except Exception as error:",
   "        return \x7b\"statusCode\": 500, \"body\": json.dumps(\x7b\"error\": str(error)\x7d)\x7d"]

theorem filled_quoting :
    (quotingCall.shape.skeleton "handler" 500 3).filled (quotingConfig.wording quotingCall) =
      List.intercalate ['\n'] (quotingLines.map String.toList) := by
  simp only [quotingLines, List.map]
  -- characters of a literal are at hand, those of a text have to be decoded
  repeat rw [String.toList_ofList]
  decide +kernel

theorem code_confines_texts_quoting :
    ∃ d : FunctionDeployment,
      quotingConfig.render quotingCall = .ok d ∧ d.code = "\n".intercalate quotingLines ∧
      (quotingCall.shape.skeleton "handler" 500 3).holes = [.userAgent, .url, .body, .target 0] ∧
      d.code.toList = (quotingCall.shape.skeleton "handler" 500 3).filled
        (quotingConfig.wording quotingCall) ∧
      (∀ hole ∈ quotingCall.shape.holes,
        literal (quotingConfig.wording quotingCall hole) <:+: d.code.toList) ∧
      Json.Parses (quotingConfig.wording quotingCall .body) quotingBody ∧
      Json.Reader.any.ofText (quotingConfig.wording quotingCall .body) = .ok quotingBody := by
  obtain ⟨holes, confined⟩ := CompilerConfig.code_confines_texts "handler" 500 3 quotingCall.shape
  have renders : (quotingConfig.render quotingCall).toOption.isSome = true := by
    decide +kernel
  obtain ⟨d, found⟩ := Option.isSome_iff_exists.mp renders
  have success := toOption_eq_some_iff.mp found
  obtain ⟨code, literals, -, parses⟩ := confined _ _ d ⟨rfl, rfl, rfl, rfl, rfl⟩ rfl success
  have text : d.code = "\n".intercalate quotingLines := by
    rw [← String.toList_inj, code, filled_quoting, String.toList_intercalate]
    rfl
  have numbers : quotingBody.numbers = [.int 3] := rfl
  have wellFormed : quotingBody.WellFormed := by
    refine ⟨rfl, fun n member => ?_⟩
    rw [numbers, List.mem_singleton] at member
    subst member
    exact ⟨by decide, by decide⟩
  have body := parses .body quotingBody rfl wellFormed fun x member => by simp [numbers] at member
  exact ⟨d, success, text, holes, code, literals, body, body.ofText (by decide)⟩

end RestWiring

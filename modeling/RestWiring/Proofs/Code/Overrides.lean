import RestWiring.Code.Tree
import RestWiring.Proofs.Stencil.Variables

/-!
# What stencils see of parts

A stencil sees of attributes, children and overrides what its free variables hold, and nothing else. So
overrides that no stencil mentions change nothing in the code of a tree, and an override could as well
be an attribute of every part, but for the one that takes the place of the children.
-/
namespace RestWiring

open Stencil (AgreeOn freeInAll)

namespace StencilSet

/-- The value of a variable: that of an override, else the texts of the children or an attribute. -/
def held (attributes : Json) (children : List String) (overrides : SortedMap String Json)
    (name : String) : Option Stencil.Value :=
  ((overrides.find? name).or
    (if name = "children" then some (.strings children)
      else (SortedMap.ofList (attributeMembers attributes)).find? name)).map .ofJson

/-- The free variables of the stencil of a name. -/
def mentioned (s : StencilSet) (name : String) : List String :=
  match s.find? name with
  | some stencil => freeInAll stencil
  | none => []

/-- The free variables of all stencils. -/
def mentionedByAny (s : StencilSet) : List String := s.values.flatMap freeInAll

/-- Attributes among which one is given a value. -/
def withAttribute (name : String) (value : Json) (attributes : Json) : Json :=
  .object ((SortedMap.ofList (attributeMembers attributes)).insert name value).entries

variable {s : StencilSet} {attributes attributes' : Json} {children children' : List String}
  {overrides overrides' : SortedMap String Json}

theorem find?_scope_eq_held (attributes : Json) (children : List String)
    (overrides : SortedMap String Json) (name : String) :
    (scope attributes children overrides).find? name = held attributes children overrides name := by
  rw [scope, SortedMap.find?_map, SortedMap.find?_overlay, SortedMap.find?_insert]
  rfl

theorem mentioned_subset (s : StencilSet) (name : String) : s.mentioned name ⊆ s.mentionedByAny := by
  unfold mentioned
  split
  · rename_i stencil found
    have member : stencil ∈ s.values := SortedMap.mem_values.mpr ⟨name, found⟩
    exact fun x free => List.mem_flatMap.mpr ⟨stencil, member, free⟩
  · exact List.nil_subset _

/-- How a stencil fares that sees a scope. -/
def outcome (s : StencilSet) (name : String) (seen : Stencil.Scope) :
    Except StencilFailure String :=
  match s.find? name with
  | none => .error .unknown
  | some stencil =>
    match stencil.render (.ofName name) seen with
    | .ok text => .ok (String.ofList (Text.trimEnd text))
    | .error fault => .error (.stopped fault)

/-- The node is only named. -/
theorem render_eq_outcome (s : StencilSet) (node name : String) (attributes : Json)
    (children : List String) (overrides : SortedMap String Json) :
    s.render node name attributes children overrides =
      (s.outcome name (scope attributes children overrides)).mapError (.renderFailure node name) := by
  unfold render outcome
  cases s.find? name with
  | none => rfl
  | some stencil =>
    dsimp only
    cases stencil.render (.ofName name) (scope attributes children overrides) <;> rfl

theorem outcome_congr {name : String} {seen seen' : Stencil.Scope}
    (agree : AgreeOn (s.mentioned name) seen seen') : s.outcome name seen = s.outcome name seen' := by
  unfold mentioned at agree
  unfold outcome
  cases found : s.find? name with
  | none => rfl
  | some stencil =>
    rw [found] at agree
    have alike : stencil.render (.ofName name) seen = stencil.render (.ofName name) seen' :=
      Stencil.renderAll_congr _ stencil agree
    dsimp only
    rw [alike]

/-- A stencil is rendered alike where its free variables hold the same. -/
theorem render_congr (node : String) {name : String}
    (same : ∀ x ∈ s.mentioned name,
      held attributes children overrides x = held attributes' children' overrides' x) :
    s.render node name attributes children overrides =
      s.render node name attributes' children' overrides' := by
  have agree : AgreeOn (s.mentioned name) (scope attributes children overrides)
      (scope attributes' children' overrides') := fun x free => by
    rw [find?_scope_eq_held, find?_scope_eq_held, same x free]
  rw [render_eq_outcome, render_eq_outcome, outcome_congr agree]

/-- What the loop over the parameters binds is not free. -/
example : standard.mentioned responseName =
    ["params", "return_variable", "params", "return_variable", "success_code", "content_type",
      "return_type", "return_variable", "return_variable"] := by decide +kernel

theorem held_congr {name : String} (same : overrides.find? name = overrides'.find? name) :
    held attributes children overrides name = held attributes children overrides' name := by
  rw [held, held, same]

/-- What is given by an override could be given by an attribute, unless it takes the place of the
children. -/
theorem held_insert {name : String} (other : name ≠ "children") (value : Json) :
    held attributes children (overrides.insert name value) =
      held (withAttribute name value attributes) children (overrides.erase name) := by
  funext x
  have given : (SortedMap.ofList (attributeMembers (withAttribute name value attributes))).find? x =
      ((SortedMap.ofList (attributeMembers attributes)).insert name value).find? x :=
    congrArg (SortedMap.find? · x) (SortedMap.ofList_entries _)
  unfold held
  rw [given, SortedMap.find?_insert, SortedMap.find?_insert]
  by_cases same : x = name
  · subst same
    have erased : (overrides.erase x).find? x = none :=
      Option.eq_none_iff_forall_ne_some.mpr fun _ found =>
        (SortedMap.find?_erase_eq_some.mp found).1 rfl
    simp only [erased, if_neg other, if_true]
    rfl
  · have kept : (overrides.erase name).find? x = overrides.find? x :=
      Option.ext fun _ => SortedMap.find?_erase_eq_some.trans (and_iff_right same)
    rw [kept, if_neg same, if_neg same]

end StencilSet

namespace CodeTree

open StencilSet (withAttribute)

section

variable (attributes : CodePart → Json) (stencils : StencilSet) (overrides : SortedMap String Json)

mutual

/-- Compiles a node as if its parts had other attributes. -/
def compileWith (above : List String) : CodeTree → Except CompilationError String
  | .node _ label part children => do
    let path := pathOf (above ++ [label])
    part.check path children.length
    let texts ← compileForestWith (above ++ [label]) children
    match part.stencilName with
    | none => .ok (separator.intercalate texts)
    | some name => stencils.render path name (attributes part) texts overrides

def compileForestWith (above : List String) :
    List CodeTree → Except CompilationError (List String)
  | [] => .ok []
  | t :: ts => do
    let text ← compileWith above t
    let texts ← compileForestWith above ts
    .ok (text :: texts)

end

def Place.compileWith (p : Place) : Except CompilationError String :=
  CodeTree.compileWith attributes stencils overrides (p.above.map label) p.tree

end

section

variable {stencils : StencilSet} {overrides overrides' : SortedMap String Json}

mutual

/-- With their own attributes, parts are compiled as ever. -/
theorem compileWith_attributes (above : List String) : (t : CodeTree) →
    compileWith CodePart.attributes stencils overrides above t = compileAt stencils overrides above t
  | .node _ label part children => by
    have texts := compileForestWith_attributes (above ++ [label]) children
    cases named : part.stencilName <;> simp only [compileWith, compileAt, texts, named]

theorem compileForestWith_attributes (above : List String) : (ts : List CodeTree) →
    compileForestWith CodePart.attributes stencils overrides above ts =
      compileForest stencils overrides above ts
  | [] => rfl
  | t :: ts => by
    rw [compileForestWith, compileForest, compileWith_attributes, compileForestWith_attributes]

end

/-- Whether every part is rendered alike with some attributes and overrides and with others, whatever
the texts of its children are. -/
def RenderedAlike (stencils : StencilSet) (attributes attributes' : CodePart → Json)
    (overrides overrides' : SortedMap String Json) : Prop :=
  ∀ part name path texts, part.stencilName = some name →
    stencils.render path name (attributes part) texts overrides =
      stencils.render path name (attributes' part) texts overrides'

variable {attributes attributes' : CodePart → Json}

mutual

/-- A tree gives the same code, or the same failure, if its parts are rendered alike. -/
theorem compileWith_congr (alike : RenderedAlike stencils attributes attributes' overrides overrides')
    (above : List String) : (t : CodeTree) →
    compileWith attributes stencils overrides above t =
      compileWith attributes' stencils overrides' above t
  | .node _ label part children => by
    rw [compileWith, compileWith, compileForestWith_congr alike]
    cases named : part.stencilName with
    | none => rfl
    | some name => simp only [alike part name _ _ named]

theorem compileForestWith_congr
    (alike : RenderedAlike stencils attributes attributes' overrides overrides')
    (above : List String) : (ts : List CodeTree) →
    compileForestWith attributes stencils overrides above ts =
      compileForestWith attributes' stencils overrides' above ts
  | [] => rfl
  | t :: ts => by
    rw [compileForestWith, compileForestWith, compileWith_congr alike, compileForestWith_congr alike]

end

/-- Overrides count for a tree only if a stencil mentions them. -/
theorem compileAt_congr
    (agree : ∀ x ∈ stencils.mentionedByAny, overrides.find? x = overrides'.find? x)
    (above : List String) (t : CodeTree) :
    compileAt stencils overrides above t = compileAt stencils overrides' above t := by
  rw [← compileWith_attributes, ← compileWith_attributes]
  exact compileWith_congr (fun _ _ path _ _ => StencilSet.render_congr path fun x free =>
    StencilSet.held_congr (agree x (stencils.mentioned_subset _ free))) above t

/-- An override gives every part an attribute. -/
theorem compileAt_insert {name : String} (other : name ≠ "children") (value : Json)
    (above : List String) (t : CodeTree) :
    compileAt stencils (overrides.insert name value) above t =
      compileWith (fun part => withAttribute name value part.attributes) stencils
        (overrides.erase name) above t := by
  rw [← compileWith_attributes]
  exact compileWith_congr (fun _ _ path _ _ => StencilSet.render_congr path fun x _ =>
    congrFun (StencilSet.held_insert other value) x) above t

/-- Rendering sees the free variables of a stencil, and nothing else of attributes, children and
overrides: neither do overrides that are not mentioned change the code of a tree, nor does it matter
if a value is an override or an attribute of every part. -/
theorem rendering_sees_mentioned (s : StencilSet) :
    (∀ name attributes attributes' children children' overrides overrides',
      (∀ x ∈ s.mentioned name, StencilSet.held attributes children overrides x =
        StencilSet.held attributes' children' overrides' x) →
      ∃ outcome : Except StencilFailure String, ∀ node node',
        s.render node name attributes children overrides =
            outcome.mapError (.renderFailure node name) ∧
          s.render node' name attributes' children' overrides' =
            outcome.mapError (.renderFailure node' name)) ∧
      (∀ (p : Place) (overrides overrides' : SortedMap String Json),
        (∀ x ∈ s.mentionedByAny, overrides.find? x = overrides'.find? x) →
        p.compile s overrides = p.compile s overrides') ∧
      (∀ (p : Place) (overrides : SortedMap String Json) name value, name ≠ "children" →
        p.compile s (overrides.insert name value) =
          p.compileWith (fun part => withAttribute name value part.attributes) s
            (overrides.erase name)) ∧
      ∀ (p : Place) overrides, p.compileWith CodePart.attributes s overrides = p.compile s overrides := by
  refine ⟨fun name attributes attributes' children children' overrides overrides' same => ?_,
    fun p _ _ agree => compileAt_congr agree _ p.tree,
    fun p _ _ value other => compileAt_insert other value _ p.tree,
    fun p _ => compileWith_attributes _ p.tree⟩
  refine ⟨s.outcome name (StencilSet.scope attributes children overrides), fun node node' => ?_⟩
  rw [← StencilSet.render_eq_outcome, ← StencilSet.render_eq_outcome]
  exact ⟨rfl, (StencilSet.render_congr node' same).symm⟩

/-- It is no use to override what a loop binds. -/
def shadowed : SortedMap String Json := .ofList [("loop", .null), ("param", .string "region")]

/-- The part that hands a value on to a parameter. -/
def handover : CodePart := .response { returnVariable := "value", params := ["scope"] }

def handoverTree : CodeTree :=
  .node 0 "lookup" .module
    [.node 1 "handler" (.handler "handler" 500) [.node 2 "response" handover []]]

/-- The stencil of an answer shows no children, and its loop binds what is overridden here. -/
theorem rendering_sees_mentioned_shadowed :
    (∀ x ∈ StencilSet.standard.mentionedByAny, shadowed.find? x = none) ∧
      (StencilSet.standard.render "response" StencilSet.responseName handover.attributes ["pass"] shadowed =
        StencilSet.standard.render "response" StencilSet.responseName handover.attributes [] ∅) ∧
      Place.compile ⟨[], handoverTree⟩ .standard shadowed =
        Place.compile ⟨[], handoverTree⟩ .standard ∅ ∧
      Place.compile ⟨[], handoverTree⟩ .standard (SortedMap.insert ∅ "error_code" (.nat 503)) =
        Place.compileWith (fun part => withAttribute "error_code" (.nat 503) part.attributes) .standard
          (SortedMap.erase ∅ "error_code") ⟨[], handoverTree⟩ := by
  obtain ⟨rendered, compiled, overridden, -⟩ := rendering_sees_mentioned .standard
  have unmentioned : ∀ x ∈ StencilSet.standard.mentionedByAny, shadowed.contains x = false := by
    decide +kernel
  have absent (x : String) (member : x ∈ StencilSet.standard.mentionedByAny) :
      shadowed.find? x = none := SortedMap.contains_eq_false_iff.mp (unmentioned x member)
  have childless : "children" ∉ StencilSet.standard.mentioned StencilSet.responseName := by
    decide +kernel
  refine ⟨absent, ?_, compiled _ _ _ absent, overridden _ _ _ _ (by decide)⟩
  obtain ⟨outcome, renders⟩ := rendered StencilSet.responseName handover.attributes handover.attributes
    ["pass"] [] shadowed ∅ fun x member => by
      have other : x ≠ "children" := fun same => childless (same ▸ member)
      have unset := absent x (StencilSet.mentioned_subset _ _ member)
      rw [StencilSet.held, StencilSet.held, unset, if_neg other, if_neg other]
      rfl
  exact (renders "response" "response").1.trans (renders "response" "response").2.symm

end

end CodeTree

end RestWiring

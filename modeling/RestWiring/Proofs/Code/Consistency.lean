import RestWiring.Proofs.Code.Trees

/-!
# Code that fits together

The libraries that a module imports, the sinks that its function is bound to and the blocks of its code
are told from a unit one by one. They fit together: what a block uses is imported, what is imported is
used, and values are written into the sinks of the function and into no others.
-/
namespace RestWiring

namespace CodePart

def isAuthenticator : CodePart → Bool
  | .authenticator _ => true
  | _ => false

/-- The target and the kind of the sink that a part writes into. -/
def written? : CodePart → Option (String × SinkKind)
  | .loader target sink _ => some (target, sink)
  | _ => none

end CodePart

namespace CodeTree

/-- The parts of all nodes, each before those of its children. -/
def parts (t : CodeTree) : List CodePart := (t.places []).map (·.tree.part)

/-- Whether the code of a module with a given header fits together, and fits the libraries and the sinks
of its function. -/
structure SelfConsistent (t : CodeTree) (h : HeaderPart) (requirements : List Requirement)
    (sinks : List SinkBinding) : Prop where
  /-- The header comes first, and there is no other one. -/
  header : t.children.head?.map part = some (.header h) ∧ ∀ h', .header h' ∈ t.parts → h' = h
  /-- Besides two modules of the language exactly the required libraries are imported. -/
  imports : h.imports = ["json", "os"] ++ requirements.flatMap (·.imports)
  imports_nodup : h.imports.Nodup
  requests : "requests" ∈ h.imports ↔ ∃ p, .request p ∈ t.parts
  boto3 : "boto3" ∈ h.imports ↔
    (∃ target sink source, .loader target sink source ∈ t.parts) ∨ ∃ p, .tableReader p ∈ t.parts
  /-- What authenticates itself finds an authenticator, which is not there for nothing. -/
  authenticated : ((∃ p, .request p ∈ t.parts ∧ p.authenticated = true) ∨
      ∃ p, .tableReader p ∈ t.parts ∧ p.authenticated = true) ↔
    ∃ d, .authenticator d ∈ t.children.map part
  /-- There is at most one authenticator, and it comes before the handler. -/
  authenticator : ∀ d, .authenticator d ∈ t.children.map part →
    t.parts.countP (·.isAuthenticator) = 1 ∧ ∃ before between name code,
      t.children.map part = before ++ .authenticator d :: between ++ [.handler name code]
  /-- The handler comes last. It ends with a response, and responds nowhere else. -/
  responds : ∃ blocks handler name code steps p, t.children = blocks ++ [handler] ∧
    handler.part = .handler name code ∧ (∀ name code, .handler name code ∉ blocks.map part) ∧
    handler.children.map part = steps ++ [.response p] ∧ ∀ p', .response p' ∉ steps
  /-- The sinks that the code writes into are those of the function, in the same order. -/
  sinks : t.parts.filterMap (·.written?) = sinks.map fun s => (s.target, s.kind)

theorem map_part_leaves (first : Nat) (steps : List (String × CodePart)) :
    (leaves first steps).map part = steps.map (·.2) := by
  induction steps generalizing first with
  | nil => rfl
  | cons s steps ih => rw [leaves_cons, List.map_cons, List.map_cons, ih]; rfl

theorem parts_twoLevels (label : String) (whole : CodePart) (front : List (String × CodePart))
    (last : String × CodePart) (steps : List (String × CodePart)) :
    (twoLevels label whole front last steps).parts =
      whole :: (front.map (·.2) ++ last.2 :: steps.map (·.2)) := by
  have below (above : List CodeTree) (first : Nat) (ss : List (String × CodePart)) :
      (forestPlaces above (leaves first ss)).map (·.tree.part) = ss.map (·.2) := by
    rw [forestPlaces_leaves, List.map_map, ← map_part_leaves first ss]
    rfl
  rw [parts, twoLevels, places, List.map_cons, forestPlaces_append, List.map_append, below, forestPlaces,
    places, forestPlaces, List.append_nil, List.map_cons, below]
  rfl

end CodeTree

/-! ## Units -/

namespace FunctionUnit

/-- What a module imports when it needs some libraries. -/
structure ImportsOnly (imports : List String) (requirements : List Requirement) : Prop where
  listed : imports = ["json", "os"] ++ requirements.flatMap (·.imports)
  nodup : imports.Nodup
  requests : "requests" ∈ imports ↔ FunctionUnit.requests ∈ requirements
  boto3 : "boto3" ∈ imports ↔ FunctionUnit.boto3 ∈ requirements

theorem requirements_mem (u : FunctionUnit) :
    u.requirements ∈ [[], [requests], [boto3], [requests, boto3]] := by
  match u with
  | .call e _ _ => cases outputs : e.outputs <;> simp [requirements, outputs]
  | .supply ⟨_, _, _, .endpoint ..⟩ _ | .supply ⟨_, _, _, .database ..⟩ _ => simp [requirements]

/-- Imports are put together from the libraries alone, and there are four lists of libraries. -/
theorem importsOnly (u : FunctionUnit) : ImportsOnly u.imports u.requirements := by
  unfold FunctionUnit.imports
  have known := u.requirements_mem
  simp only [List.mem_cons, List.not_mem_nil, or_false] at known
  rcases known with none | call | read | write
  · rw [none]; exact ⟨by decide, by decide, by decide, by decide⟩
  · rw [call]; exact ⟨by decide, by decide, by decide, by decide⟩
  · rw [read]; exact ⟨by decide, by decide, by decide, by decide⟩
  · rw [write]; exact ⟨by decide, by decide, by decide, by decide⟩

end FunctionUnit

namespace CompilerConfig

variable (c : CompilerConfig) (u : FunctionUnit) (authenticated : Bool)

/-- The parts of the steps of a unit. -/
def stepParts : List CodePart := (c.steps u authenticated).map (·.2)

theorem requests_iff :
    FunctionUnit.requests ∈ u.requirements ↔ ∃ p, .request p ∈ c.stepParts u authenticated := by
  match u with
  | .call e _ _ => cases outputs : e.outputs <;> simp [FunctionUnit.requirements, outputs, stepParts, steps]
  | .supply ⟨_, _, _, .endpoint ..⟩ _ => simp [FunctionUnit.requirements, stepParts, steps]
  | .supply ⟨_, _, _, .database ..⟩ _ =>
    have other : FunctionUnit.requests ≠ FunctionUnit.boto3 := by decide
    simp [FunctionUnit.requirements, stepParts, steps, other]

theorem boto3_iff :
    FunctionUnit.boto3 ∈ u.requirements ↔
      (∃ target sink source, .loader target sink source ∈ c.stepParts u authenticated) ∨
        ∃ p, .tableReader p ∈ c.stepParts u authenticated := by
  have other : FunctionUnit.boto3 ≠ FunctionUnit.requests := by decide
  match u with
  | .call e resolvers descriptors =>
    cases outputs : e.outputs with
    | nil => simp [FunctionUnit.requirements, outputs, stepParts, steps, other]
    | cons o os =>
      have loads : .loader o.target o.kind.sink "payload" ∈
          c.stepParts (.call e resolvers descriptors) authenticated := by
        simp [stepParts, steps, outputs]
      exact iff_of_true (by simp [FunctionUnit.requirements, outputs]) (.inl ⟨_, _, _, loads⟩)
  | .supply ⟨_, _, _, .endpoint ..⟩ _ => simp [FunctionUnit.requirements, stepParts, steps]
  | .supply ⟨_, _, _, .database ..⟩ _ => simp [FunctionUnit.requirements, stepParts, steps]

/-- Some step authenticates itself if the unit has a descriptor to do it with. -/
theorem authenticated_iff {descriptor? : Option Json} (described : u.descriptor? = .ok descriptor?) :
    ((∃ p, .request p ∈ c.stepParts u descriptor?.isSome ∧ p.authenticated = true) ∨
      ∃ p, .tableReader p ∈ c.stepParts u descriptor?.isSome ∧ p.authenticated = true) ↔
        descriptor?.isSome := by
  match u with
  | .call e _ _ => simp [stepParts, steps]
  | .supply ⟨_, _, _, .endpoint ..⟩ _ =>
    cases described
    simp [stepParts, steps]
  | .supply ⟨_, _, _, .database ..⟩ _ => simp [stepParts, steps]

theorem written_stepParts :
    (c.stepParts u authenticated).filterMap (·.written?) = u.sinks.map fun s => (s.target, s.kind) := by
  match u with
  | .call e _ _ =>
    simp [stepParts, steps, CodePart.written?, FunctionUnit.sinks, List.filterMap_map, Function.comp_def]
  | .supply ⟨_, _, _, .endpoint ..⟩ _ | .supply ⟨_, _, _, .database ..⟩ _ => rfl

/-- The blocks of a module are no steps. -/
theorem stepParts_plain : ∀ part ∈ c.stepParts u authenticated,
    (∀ h, part ≠ .header h) ∧ part.isAuthenticator = false := by
  match u with
  | .call e _ _ => simp +contextual [stepParts, steps, CodePart.isAuthenticator, or_imp, forall_and]
  | .supply ⟨_, _, _, .endpoint ..⟩ _ | .supply ⟨_, _, _, .database ..⟩ _ =>
    simp [stepParts, steps, CodePart.isAuthenticator]

theorem stepParts_concat : ∃ firsts p, c.stepParts u authenticated = firsts ++ [.response p] ∧
    ∀ p', .response p' ∉ firsts := by
  match u with
  | .call e _ _ =>
    rw [stepParts, steps, List.map_append]
    exact ⟨_, _, rfl, by simp⟩
  | .supply ⟨_, _, _, .endpoint ..⟩ _ | .supply ⟨_, _, _, .database ..⟩ _ =>
    exact ⟨[_], _, rfl, by simp⟩

end CompilerConfig

/-! ## Modules -/

namespace CompilerConfig

variable {c : CompilerConfig} {u : FunctionUnit} {t : CodeTree}

/-- The parts of the tree of a unit. -/
theorem parts_of_build (c : CompilerConfig) (u : FunctionUnit) (descriptor? : Option Json) :
    (CodeTree.twoLevels u.name .module (c.front u descriptor?) ("handler", .handler c.handlerName 500)
      (c.steps u descriptor?.isSome)).parts =
    .module :: .header { imports := u.imports, userAgent := c.userAgent } ::
      ((descriptor?.map fun d => CodePart.authenticator d.compact).toList ++
        .handler c.handlerName 500 :: c.stepParts u descriptor?.isSome) := by
  rw [CodeTree.parts_twoLevels, front]
  cases descriptor? <;> rfl

theorem blocks_of_build (c : CompilerConfig) (u : FunctionUnit) (descriptor? : Option Json) :
    (CodeTree.twoLevels u.name .module (c.front u descriptor?) ("handler", .handler c.handlerName 500)
      (c.steps u descriptor?.isSome)).children.map CodeTree.part =
    .header { imports := u.imports, userAgent := c.userAgent } ::
      ((descriptor?.map fun d => CodePart.authenticator d.compact).toList ++
        [.handler c.handlerName 500]) := by
  rw [CodeTree.twoLevels, CodeTree.children, List.map_append, CodeTree.map_part_leaves, front]
  cases descriptor? <;> rfl

theorem selfConsistent_of_build (built : c.build u = .ok t) :
    t.SelfConsistent { imports := u.imports, userAgent := c.userAgent } u.requirements u.sinks := by
  obtain ⟨descriptor?, described, rfl⟩ := build_success built
  have parts := c.parts_of_build u descriptor?
  have blocks := c.blocks_of_build u descriptor?
  have plain := c.stepParts_plain u descriptor?.isSome
  have imports := u.importsOnly
  constructor
  case header =>
    rw [← List.head?_map, blocks, parts]
    refine ⟨rfl, fun h' member => ?_⟩
    simp only [List.mem_cons, List.mem_append, Option.mem_toList, Option.map_eq_some_iff, reduceCtorEq,
      and_false, exists_false, false_or, CodePart.header.injEq] at member
    rcases member with same | step
    · exact same
    · exact absurd rfl ((plain _ step).1 h')
  case imports => exact imports.listed
  case imports_nodup => exact imports.nodup
  case requests =>
    rw [imports.requests, c.requests_iff u descriptor?.isSome, parts]
    simp
  case boto3 =>
    rw [imports.boto3, c.boto3_iff u descriptor?.isSome, parts]
    simp
  case authenticated =>
    have needs := c.authenticated_iff u described
    rw [parts, blocks]
    cases descriptor? <;> simpa using needs
  case authenticator =>
    have others : (c.stepParts u descriptor?.isSome).countP (·.isAuthenticator) = 0 :=
      List.countP_eq_zero.mpr fun part member => by simp [(plain part member).2]
    rw [blocks, parts]
    intro d member
    cases descriptor? with
    | none => simp at member
    | some descriptor =>
      obtain rfl : d = descriptor.compact := by simpa using member
      refine ⟨?_, [.header _], [], _, _, rfl⟩
      simpa [List.countP_cons, CodePart.isAuthenticator] using others
  case responds =>
    obtain ⟨firsts, p, ends, silent⟩ := c.stepParts_concat u descriptor?.isSome
    refine ⟨_, _, c.handlerName, 500, firsts, p, rfl, rfl, ?_, ?_, silent⟩
    · rw [CodeTree.map_part_leaves, front]
      cases descriptor? <;> simp
    · rw [← ends]
      exact CodeTree.map_part_leaves _ _
  case sinks =>
    rw [parts, ← c.written_stepParts u descriptor?.isSome]
    cases descriptor? <;> rfl

/-- Whatever a unit is, the tree of its code fits together, and it fits the libraries and the sinks with
which the function is deployed. -/
theorem build_selfConsistent (built : c.build u = .ok t) :
    t.SelfConsistent { imports := u.imports, userAgent := c.userAgent } u.requirements u.sinks ∧
      ∀ d, c.render u = .ok d → d.requirements = u.requirements ∧ d.sinks = u.sinks := by
  refine ⟨selfConsistent_of_build built, fun d rendered => ?_⟩
  obtain ⟨tree, -, rendered⟩ := bind_success_iff.mp rendered
  obtain ⟨texts, -, equal⟩ := bind_success_iff.mp rendered
  cases equal
  exact ⟨rfl, rfl⟩

end CompilerConfig

/-- A resolver that reads a table and authenticates itself. -/
def scopeUnit : FunctionUnit :=
  .supply ⟨"scope_resolver", "", some (.object [("type", .string "token")]), .database "" "scopes"⟩ ["scope"]

theorem CompilerConfig.build_selfConsistent_scopes :
    ∃ t, ({ codeRoot := "out" } : CompilerConfig).build scopeUnit = .ok t ∧
      t.SelfConsistent { imports := ["json", "os", "boto3"], userAgent := "restmap/0.0.1" }
        [FunctionUnit.boto3] [] ∧
      .authenticator "\x7b\"type\":\"token\"\x7d" ∈ t.children.map CodeTree.part := by
  obtain ⟨consistent, -⟩ := build_selfConsistent (c := { codeRoot := "out" }) (u := scopeUnit) rfl
  exact ⟨_, rfl, consistent, by decide⟩

end RestWiring

import RestWiring.Proofs.Code.Checks
import RestWiring.Proofs.Json.Equality

/-!
# The units that have no code

A resolver always has code. A call has none for one of four reasons, which are stated here on the
declarations and the configuration alone, in the order in which they are reported.
-/
namespace RestWiring

/-! ## Descriptors -/

/-- Whether some values stand for the values of a list, one for all that are the same. -/
structure Represents (different values : List Json) : Prop where
  held : ∀ d ∈ different, d ∈ values
  apart : different.Pairwise fun d d' => (d == d') = false
  complete : ∀ d ∈ values, ∃ d' ∈ different, (d == d') = true

namespace Represents

variable {different values : List Json}

theorem nil : Represents [] [] where
  held := by simp
  apart := .nil
  complete := by simp

theorem skip {j : Json} (represents : Represents different values)
    (known : different.contains j = true) : Represents different (values ++ [j]) where
  held d member := List.mem_append_left _ (represents.held d member)
  apart := represents.apart
  complete := by
    rw [List.forall_mem_append, List.forall_mem_singleton]
    exact ⟨represents.complete, List.contains_iff_exists_mem_beq.mp known⟩

theorem keep {j : Json} (represents : Represents different values)
    (unknown : different.contains j = false) : Represents (different ++ [j]) (values ++ [j]) where
  held := by
    rw [List.forall_mem_append, List.forall_mem_singleton]
    exact ⟨fun d member => List.mem_append_left _ (represents.held d member),
      List.mem_append_right _ List.mem_cons_self⟩
  apart := by
    refine List.pairwise_append.mpr ⟨represents.apart, List.pairwise_singleton _ _, ?_⟩
    intro d member j' last
    obtain rfl := List.mem_singleton.mp last
    rw [Bool.eq_false_iff] at unknown ⊢
    exact fun same => unknown (List.contains_iff_exists_mem_beq.mpr ⟨d, member, BEq.symm same⟩)
  complete := by
    rw [List.forall_mem_append, List.forall_mem_singleton]
    refine ⟨fun d member => ?_, j, List.mem_append_right _ List.mem_cons_self, BEq.rfl⟩
    obtain ⟨d', kept, same⟩ := represents.complete d member
    exact ⟨d', List.mem_append_left _ kept, same⟩

theorem distinct (represents : Represents different values) (js : List Json) :
    Represents (FunctionUnit.distinct js different) (values ++ js) := by
  induction js generalizing different values with
  | nil => rwa [List.append_nil]
  | cons j js ih =>
    rw [FunctionUnit.distinct, List.append_cons values]
    cases found : different.contains j with
    | true => exact ih (represents.skip found)
    | false => exact ih (represents.keep found)

/-- More than one value stands for a list if the list holds values that are not the same. -/
theorem two_le_iff (represents : Represents different values) :
    2 ≤ different.length ↔ ∃ d ∈ values, ∃ d' ∈ values, (d == d') = false := by
  constructor
  · intro several
    obtain _ | ⟨d, _ | ⟨d', rest⟩⟩ := different
    · cases several
    · cases Nat.le_of_succ_le_succ several
    · obtain ⟨first, -⟩ := List.pairwise_cons.mp represents.apart
      exact ⟨d, represents.held d (by simp), d', represents.held d' (by simp), first d' (by simp)⟩
  · rintro ⟨d, member, d', member', differ⟩
    obtain ⟨k, kept, same⟩ := represents.complete d member
    obtain ⟨k', kept', same'⟩ := represents.complete d' member'
    obtain _ | ⟨j, _ | ⟨j', rest⟩⟩ := different
    · cases kept
    · obtain rfl := List.mem_singleton.mp kept
      obtain rfl := List.mem_singleton.mp kept'
      rw [BEq.trans same (BEq.symm same')] at differ
      cases differ
    · exact Nat.le_add_left 2 rest.length

end Represents

/-- The descriptors of the resolvers that read an endpoint. -/
def ResolutionGraph.descriptorsReading (g : ResolutionGraph) (endpoint : String) : List Json :=
  (g.resolversReading endpoint).filterMap (·.authentication)

/-- Whether two resolvers that read an endpoint carry descriptors that are not the same. -/
def ResolutionGraph.ReadersDisagree (g : ResolutionGraph) (endpoint : String) : Prop :=
  ∃ r ∈ g.resolversReading endpoint, ∃ r' ∈ g.resolversReading endpoint, ∃ d d',
    r.authentication = some d ∧ r'.authentication = some d' ∧ (d == d') = false

theorem ResolutionGraph.readersDisagree_iff {g : ResolutionGraph} {endpoint : String} :
    g.ReadersDisagree endpoint ↔ ∃ d ∈ g.descriptorsReading endpoint,
      ∃ d' ∈ g.descriptorsReading endpoint, (d == d') = false := by
  simp only [ReadersDisagree, descriptorsReading, List.mem_filterMap]
  constructor
  · rintro ⟨r, member, r', member', d, d', carried, carried', differ⟩
    exact ⟨d, ⟨r, member, carried⟩, d', ⟨r', member', carried'⟩, differ⟩
  · rintro ⟨d, ⟨r, member, carried⟩, d', ⟨r', member', carried'⟩, differ⟩
    exact ⟨r, member, r', member', d, d', carried, carried', differ⟩

/-- A call of a graph holds the descriptors of the readers, and each of them once. -/
theorem FunctionUnit.represents_of_mem_collect {g : ResolutionGraph} {e : Endpoint}
    {resolvers : List Resolver} {descriptors : List Json}
    (collected : .call e resolvers descriptors ∈ collect g) :
    Represents descriptors (g.descriptorsReading e.name) := by
  rcases List.mem_append.mp collected with call | supply
  · obtain ⟨e, -, equal⟩ := List.mem_map.mp call
    cases equal
    exact Represents.nil.distinct (g.descriptorsReading e.name)
  · obtain ⟨r, -, ⟨⟩⟩ := List.mem_map.mp supply

/-- Whether a call would have to send a body that it does not have. -/
def Endpoint.LacksBody (e : Endpoint) : Prop :=
  e.method ∈ [Method.post, Method.put, Method.patch] ∧ e.body = none

instance (e : Endpoint) : Decidable e.LacksBody := inferInstanceAs (Decidable (_ ∧ _))

/-! ## The checks of a unit -/

namespace CodeTree

/-- What the checks of parts without children find under a path. -/
def stepFaults (path : List String) (steps : List (String × CodePart)) : List CompilationError :=
  steps.flatMap fun s => ((s.2.fault? 0).map (.invalidConfig (pathOf (path ++ [s.1])))).toList

theorem faults_leaves (above : List CodeTree) (first : Nat) (steps : List (String × CodePart)) :
    (forestPlaces above (leaves first steps)).flatMap Place.faults =
      stepFaults (above.map label) steps := by
  rw [forestPlaces_leaves]
  induction steps generalizing first with
  | nil => rfl
  | cons s steps ih => rw [leaves_cons, List.map_cons, List.flatMap_cons, ih]; rfl

theorem moderate_leaves {above : List CodeTree} {first : Nat} {steps : List (String × CodePart)}
    (moderate : ∀ s ∈ steps, s.2.IsModerate) :
    ∀ p ∈ forestPlaces above (leaves first steps), p.tree.part.IsModerate := by
  rw [forestPlaces_leaves, List.forall_mem_map]
  intro t member
  obtain ⟨s, listed, rfl⟩ := List.mem_map.mp member
  exact moderate s.1 (List.fst_mem_of_mem_zipIdx listed)

/-- The checks find nothing in the node around some steps if it has steps, and then go on to these. -/
theorem places_around (above : List CodeTree) (number next : Nat) (last : String × CodePart)
    {steps : List (String × CodePart)} (sound : last.2.fault? steps.length = none) :
    (places above (.node number last.1 last.2 (leaves next steps))).flatMap Place.faults =
      stepFaults (above.map label ++ [last.1]) steps := by
  have length : (leaves next steps).length = steps.length := by simp [leaves]
  have own : Place.faults ⟨above, .node number last.1 last.2 (leaves next steps)⟩ = [] := by
    simp [Place.faults, part, children, length, sound]
  rw [places, List.flatMap_cons, own, faults_leaves, List.map_append]
  rfl

/-- What is reported when a module is compiled: what the checks find in its front, then what they
find in the steps of its last part. -/
theorem twoLevels_raises (name : String) (whole : CodePart) (last : String × CodePart)
    {front steps : List (String × CodePart)}
    (front_moderate : ∀ s ∈ front, s.2.IsModerate) (last_moderate : last.2.IsModerate)
    (steps_moderate : ∀ s ∈ steps, s.2.IsModerate) (sound : last.2.fault? steps.length = none) :
    Raises (stepFaults [name] front ++ stepFaults [name, last.1] steps)
      (compileForest .standard ∅ [name] (twoLevels name whole front last steps).children) := by
  have around := places_around [twoLevels name whole front last steps] (1 + front.length)
    (1 + front.length + 1) last sound
  have raises := compileForest_raises [twoLevels name whole front last steps]
    (leaves 1 front ++ [.node (1 + front.length) last.1 last.2 (leaves (1 + front.length + 1) steps)])
  rw [forestPlaces_append, forestPlaces, forestPlaces, List.append_nil, List.flatMap_append,
    faults_leaves, around] at raises
  refine raises (List.forall_mem_append.mpr ⟨moderate_leaves front_moderate, ?_⟩)
  rw [places, List.forall_mem_cons]
  exact ⟨last_moderate, moderate_leaves steps_moderate⟩

end CodeTree

namespace CompilerConfig

/-- A configuration with the standard stencils and without overrides. -/
structure IsStandard (c : CompilerConfig) : Prop where
  stencils : c.stencils = .standard
  overrides : c.overrides = ∅
  /-- The number of attempts fits into a word of 32 bits. -/
  attempts : c.requestAttempts < 2 ^ 32

section

variable {c : CompilerConfig} {u : FunctionUnit}

theorem front_faults (c : CompilerConfig) (u : FunctionUnit) (descriptor? : Option Json)
    (path : List String) : CodeTree.stepFaults path (c.front u descriptor?) = [] := by
  cases descriptor? <;> rfl

theorem front_moderate (c : CompilerConfig) (u : FunctionUnit) (descriptor? : Option Json) :
    ∀ s ∈ c.front u descriptor?, s.2.IsModerate := by
  cases descriptor? <;> simp [front, CodePart.IsModerate]

theorem steps_moderate (standard : c.IsStandard) (authenticated : Bool) :
    ∀ s ∈ c.steps u authenticated, s.2.IsModerate := by
  cases u with
  | call e _ _ =>
    have attempts := standard.attempts
    simpa +contextual [steps, CodePart.IsModerate, or_imp, forall_and] using attempts
  | supply r feeds =>
    obtain ⟨_, _, _, source⟩ := r
    cases source <;> simp [steps, CodePart.IsModerate]

theorem steps_ne_nil (authenticated : Bool) : c.steps u authenticated ≠ [] := by
  cases u <;> simp [steps]

/-- A unit is compiled unless its descriptors conflict or the check of a step finds something. -/
theorem render_raises (standard : c.IsStandard) {errors faults : List CompilationError}
    (described : Raises errors u.descriptor?)
    (found : ∀ authenticated,
      CodeTree.stepFaults [u.name, "handler"] (c.steps u authenticated) = faults) :
    Raises (errors ++ faults) (c.render u) := by
  have raises : Raises errors (c.build u) := by
    rw [build_eq]
    exact described.map
  rw [render, standard.stencils, standard.overrides]
  refine raises.bind fun tree built => ?_
  obtain ⟨descriptor?, -, rfl⟩ := build_success built
  have sound : (CodePart.handler c.handlerName 500).fault?
      (c.steps u descriptor?.isSome).length = none :=
    if_neg (mt List.length_eq_zero_iff.mp (steps_ne_nil _))
  have compiled := CodeTree.twoLevels_raises u.name .module ("handler", .handler c.handlerName 500)
    (c.front_moderate u descriptor?) trivial (steps_moderate standard descriptor?.isSome) sound
  rw [front_faults, found, List.nil_append] at compiled
  rw [← List.append_nil faults]
  exact compiled.bind fun texts _ => .ok _

/-- Nothing can be wrong with a resolver. -/
theorem render_supply (standard : c.IsStandard) (r : Resolver) (feeds : List String) :
    ∃ d, c.render (.supply r feeds) = .ok d := by
  have described : Raises [] (FunctionUnit.supply r feeds).descriptor? := by
    obtain ⟨_, _, _, source⟩ := r
    cases source <;> exact .ok _
  have sound (authenticated : Bool) : CodeTree.stepFaults [r.name, "handler"]
      (c.steps (.supply r feeds) authenticated) = [] := by
    obtain ⟨_, _, _, source⟩ := r
    cases source <;> rfl
  exact render_raises standard described sound

/-! ## Calls -/

theorem descriptor?_raises (e : Endpoint) (resolvers : List Resolver) (descriptors : List Json) :
    Raises
      (if 2 ≤ descriptors.length then
        [CompilationError.invalidConfig e.name (.conflictingDescriptors descriptors.length)] else [])
      (FunctionUnit.call e resolvers descriptors).descriptor? := by
  obtain _ | ⟨d, _ | ⟨d', rest⟩⟩ := descriptors
  · exact .ok _
  · exact .ok _
  · rw [if_pos (by simp)]
    exact rfl

theorem path_step (name label : String) :
    CodeTree.pathOf [name, "handler", label] = name ++ "/handler/" ++ label := by
  have joint : "/handler/" = "/" ++ "handler" ++ "/" := by decide
  rw [joint, ← String.append_assoc, ← String.append_assoc]
  rfl

theorem loader_faults (name : String) (outputs : List Output) (source : String) :
    CodeTree.stepFaults [name, "handler"]
        (outputs.map fun o => ("loader:" ++ o.name, .loader o.target o.kind.sink source)) =
      (outputs.filter (Text.isBlank ·.target)).map fun o =>
        .invalidConfig (name ++ "/handler/loader:" ++ o.name) .emptyTarget := by
  induction outputs with
  | nil => rfl
  | cons o outputs ih =>
    have path : CodeTree.pathOf [name, "handler", "loader:" ++ o.name] =
        name ++ "/handler/loader:" ++ o.name := by
      have joint : "/handler/loader:" = "/handler/" ++ "loader:" := by decide
      rw [path_step, joint, String.append_assoc, String.append_assoc, String.append_assoc]
    rw [List.map_cons, CodeTree.stepFaults, List.flatMap_cons, ← CodeTree.stepFaults, ih]
    cases blank : Text.isBlank o.target with
    | true => simp [CodePart.fault?, blank, path]
    | false => simp [CodePart.fault?, blank]

theorem request_fault? (c : CompilerConfig) (e : Endpoint) (authenticated : Bool) :
    (CodePart.request
      { method := e.method, url := e.url, authenticated, body := e.body.map (·.compact),
        timeoutMs := c.requestTimeoutMs, attempts := c.requestAttempts }).fault? 0 =
      if e.LacksBody then some (.bodyRequired e.method)
      else if c.requestAttempts = 0 then some .noAttempts
      else none := by
  have lacks : (e.method.requiresBody = true ∧ e.body.map (·.compact) = none) ↔ e.LacksBody := by
    rw [Endpoint.LacksBody, Option.map_eq_none_iff]
    cases e.method <;> simp [Method.requiresBody]
  simp only [CodePart.fault?, lacks]

/-- What the checks find in the steps of a call. -/
def callFaults (c : CompilerConfig) (e : Endpoint) : List CompilationError :=
  (if e.LacksBody then [.invalidConfig (e.name ++ "/handler/request") (.bodyRequired e.method)]
    else if c.requestAttempts = 0 then [.invalidConfig (e.name ++ "/handler/request") .noAttempts]
    else []) ++
  (e.outputs.filter (Text.isBlank ·.target)).map fun o =>
    .invalidConfig (e.name ++ "/handler/loader:" ++ o.name) .emptyTarget

theorem step_faults (c : CompilerConfig) (e : Endpoint) (resolvers : List Resolver)
    (descriptors : List Json) (authenticated : Bool) :
    CodeTree.stepFaults [e.name, "handler"]
      (c.steps (.call e resolvers descriptors) authenticated) = c.callFaults e := by
  have path : CodeTree.pathOf ([e.name, "handler"] ++ ["request"]) =
      e.name ++ "/handler/request" := by
    have joint : "/handler/request" = "/handler/" ++ "request" := by decide
    rw [joint, ← String.append_assoc]
    exact path_step e.name "request"
  rw [steps, CodeTree.stepFaults, List.flatMap_append, List.flatMap_append, ← CodeTree.stepFaults,
    ← CodeTree.stepFaults, ← CodeTree.stepFaults, loader_faults, callFaults, CodeTree.stepFaults,
    List.flatMap_cons, request_fault?, path]
  split
  · simp [CodeTree.stepFaults, CodePart.fault?]
  · split <;> simp [CodeTree.stepFaults, CodePart.fault?]

/-- Too many descriptors come before everything else that can be wrong with a call. -/
theorem render_call (standard : c.IsStandard) (e : Endpoint) (resolvers : List Resolver)
    (descriptors : List Json) :
    Raises
      ((if 2 ≤ descriptors.length then
          [.invalidConfig e.name (.conflictingDescriptors descriptors.length)]
        else []) ++ c.callFaults e)
      (c.render (.call e resolvers descriptors)) :=
  render_raises standard (descriptor?_raises e resolvers descriptors)
    (step_faults c e resolvers descriptors)

end

/-- Why a call is refused whose readers carry so many different descriptors. Each reason counts only
where none of those before it does. -/
inductive Refusal (c : CompilerConfig) (g : ResolutionGraph) (e : Endpoint) (carried : Nat) :
    CompilationError → Prop
  | descriptors (disagree : g.ReadersDisagree e.name) :
    Refusal c g e carried (.invalidConfig e.name (.conflictingDescriptors carried))
  | body (agree : ¬ g.ReadersDisagree e.name) (lacks : e.LacksBody) :
    Refusal c g e carried (.invalidConfig (e.name ++ "/handler/request") (.bodyRequired e.method))
  | attempts (agree : ¬ g.ReadersDisagree e.name) (has : ¬ e.LacksBody)
      (never : c.requestAttempts = 0) :
    Refusal c g e carried (.invalidConfig (e.name ++ "/handler/request") .noAttempts)
  | target (agree : ¬ g.ReadersDisagree e.name) (has : ¬ e.LacksBody)
      (sometimes : c.requestAttempts ≠ 0) {before after : List Output} {o : Output}
      (listed : e.outputs = before ++ o :: after)
      (first : ∀ o ∈ before, Text.isBlank o.target = false) (blank : Text.isBlank o.target = true) :
    Refusal c g e carried
      (.invalidConfig (e.name ++ "/handler/loader:" ++ o.name) .emptyTarget)

section

variable {c : CompilerConfig} {g : ResolutionGraph} {e : Endpoint}

theorem loader_refusal_iff {err : CompilationError} :
    ((e.outputs.filter (Text.isBlank ·.target)).map fun o =>
      CompilationError.invalidConfig (e.name ++ "/handler/loader:" ++ o.name) .emptyTarget).head? =
        some err ↔
      ∃ before o after, e.outputs = before ++ o :: after ∧
        (∀ o ∈ before, Text.isBlank o.target = false) ∧ Text.isBlank o.target = true ∧
        err = .invalidConfig (e.name ++ "/handler/loader:" ++ o.name) .emptyTarget := by
  rw [List.head?_map, List.head?_filter, Option.map_eq_some_iff]
  simp only [List.find?_eq_some_iff_append]
  constructor
  · rintro ⟨o, ⟨blank, before, after, listed, first⟩, rfl⟩
    exact ⟨before, o, after, listed, by simpa using first, blank, rfl⟩
  · rintro ⟨before, o, after, listed, first, blank, rfl⟩
    exact ⟨o, ⟨blank, before, after, listed, by simpa using first⟩, rfl⟩

/-- A call is refused for the first thing that is wrong with it. -/
theorem refusal_iff {carried : Nat} (several : 2 ≤ carried ↔ g.ReadersDisagree e.name)
    {err : CompilationError} :
    ((if 2 ≤ carried then
        [CompilationError.invalidConfig e.name (.conflictingDescriptors carried)]
      else []) ++ c.callFaults e).head? = some err ↔ c.Refusal g e carried err := by
  -- The cases follow the list: what stands before in it has been ruled out in each of them.
  rw [List.head?_append, callFaults, List.head?_append]
  constructor
  · intro head
    split at head
    · rename_i disagree
      cases head
      exact .descriptors (several.mp disagree)
    · rename_i agree
      have agree := mt several.mpr agree
      split at head
      · rename_i lacks
        cases head
        exact .body agree lacks
      · rename_i has
        split at head
        · rename_i never
          cases head
          exact .attempts agree has never
        · rename_i sometimes
          obtain ⟨before, o, after, listed, first, blank, rfl⟩ := loader_refusal_iff.mp head
          exact .target agree has sometimes listed first blank
  · intro refusal
    cases refusal with
    | descriptors disagree => rw [if_pos (several.mpr disagree)]; rfl
    | body agree lacks => rw [if_neg (mt several.mp agree), if_pos lacks]; rfl
    | attempts agree has never =>
      rw [if_neg (mt several.mp agree), if_neg has, if_pos never]
      rfl
    | target agree has sometimes listed first blank =>
      rw [if_neg (mt several.mp agree), if_neg has, if_neg sometimes]
      exact loader_refusal_iff.mpr ⟨_, _, _, listed, first, blank, rfl⟩

/-- There is a reason to refuse a call if one of the four things is wrong with it. -/
theorem exists_refusal_iff {carried : Nat} :
    (∃ err, c.Refusal g e carried err) ↔
      g.ReadersDisagree e.name ∨ e.LacksBody ∨ c.requestAttempts = 0 ∨
        ∃ o ∈ e.outputs, Text.isBlank o.target = true := by
  constructor
  · rintro ⟨err, refusal⟩
    cases refusal with
    | descriptors disagree => exact .inl disagree
    | body _ lacks => exact .inr (.inl lacks)
    | attempts _ _ never => exact .inr (.inr (.inl never))
    | target _ _ _ listed _ blank =>
      exact .inr (.inr (.inr ⟨_, by rw [listed]; simp, blank⟩))
  · intro wrong
    by_cases disagree : g.ReadersDisagree e.name
    · exact ⟨_, .descriptors disagree⟩
    by_cases lacks : e.LacksBody
    · exact ⟨_, .body disagree lacks⟩
    by_cases never : c.requestAttempts = 0
    · exact ⟨_, .attempts disagree lacks never⟩
    simp only [disagree, lacks, never, false_or] at wrong
    obtain ⟨o, found⟩ := Option.isSome_iff_exists.mp (List.find?_isSome.mpr wrong)
    obtain ⟨blank, before, after, listed, first⟩ := List.find?_eq_some_iff_append.mp found
    exact ⟨_, .target disagree lacks never listed (by simpa using first) blank⟩

end

/-- Which units have no code. A resolver has code in any case. A call has none if two resolvers that
read its endpoint carry descriptors that are not the same, if it lacks the body that its method
requires, if requests are never sent, or if an output has a blank target; then the first of these
reasons is reported, and nothing else. -/
theorem render_refusals {c : CompilerConfig} (standard : c.IsStandard) (g : ResolutionGraph) :
    (∀ r feeds, ∃ d, c.render (.supply r feeds) = .ok d) ∧
    ∀ e resolvers descriptors, .call e resolvers descriptors ∈ FunctionUnit.collect g →
      ((∃ err, c.render (.call e resolvers descriptors) = .error err) ↔
        g.ReadersDisagree e.name ∨ e.LacksBody ∨ c.requestAttempts = 0 ∨
          ∃ o ∈ e.outputs, Text.isBlank o.target = true) ∧
      (∀ err, c.render (.call e resolvers descriptors) = .error err ↔
        c.Refusal g e descriptors.length err) ∧
      Represents descriptors (g.descriptorsReading e.name) := by
  refine ⟨render_supply standard, fun e resolvers descriptors collected => ?_⟩
  have represents := FunctionUnit.represents_of_mem_collect collected
  have several : 2 ≤ descriptors.length ↔ g.ReadersDisagree e.name :=
    represents.two_le_iff.trans ResolutionGraph.readersDisagree_iff.symm
  have reported (err : CompilationError) : c.render (.call e resolvers descriptors) = .error err ↔
      c.Refusal g e descriptors.length err :=
    (render_call standard e resolvers descriptors).error_iff.trans (refusal_iff several)
  refine ⟨?_, reported, represents⟩
  rw [exists_congr reported]
  exact exists_refusal_iff

end CompilerConfig

def lookupEndpoint : Endpoint :=
  { name := "lookup", description := "", method := .get, body := none, outputs := []
    location := .base "https://svc.example.com/scopes" }

def bearerDescriptor : Json := .object [("env", .string "LOOKUP_TOKEN"), ("type", .string "bearer")]

def keyDescriptor : Json := .object [("env", .string "REGION_KEY"), ("type", .string "api_key")]

/-- An endpoint of which two resolvers carry descriptors that differ. -/
def lookupGraph : ResolutionGraph :=
  let reader (name : String) (descriptor : Json) : String × Resolver :=
    (name, ⟨name, "", some descriptor, .endpoint lookupEndpoint none⟩)
  { endpoints := .ofList [("lookup", lookupEndpoint)]
    resolvers := .ofList
      [reader "region_resolver" keyDescriptor, reader "scope_resolver" bearerDescriptor] }

def lookupConfig : CompilerConfig := { codeRoot := "out" }

theorem CompilerConfig.render_refusals_lookup :
    lookupConfig.render (.call lookupEndpoint [] [keyDescriptor, bearerDescriptor]) =
      .error (.invalidConfig "lookup" (.conflictingDescriptors 2)) := by
  have standard : lookupConfig.IsStandard := ⟨rfl, rfl, by decide⟩
  have collected : .call lookupEndpoint [] [keyDescriptor, bearerDescriptor] ∈
      FunctionUnit.collect lookupGraph :=
    List.mem_of_getElem? (i := 0) rfl
  have carried : lookupGraph.descriptorsReading "lookup" = [keyDescriptor, bearerDescriptor] := rfl
  obtain ⟨-, refused, -⟩ := (render_refusals standard lookupGraph).2 lookupEndpoint [] _ collected
  refine (refused _).mpr (.descriptors (ResolutionGraph.readersDisagree_iff.mpr ?_))
  refine ⟨keyDescriptor, ?_, bearerDescriptor, ?_, by decide⟩
  · exact carried ▸ List.mem_cons_self
  · exact carried ▸ List.mem_cons_of_mem _ List.mem_cons_self

end RestWiring

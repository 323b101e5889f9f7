import RestWiring.Proofs.Resolution.Cycles

/-!
# Resolved graphs and their templates

A resolved graph has one node for every declaration. Each node says what its declaration says, and
whatever it holds at any depth is what the graph stores under that name. Placing never fails once
the checks before the sweeps have passed, so the errors of the checks and cycles are all there is.
-/
namespace RestWiring

/-! ## What a node has to say -/

/-- An endpoint as declared; references are compared by name. -/
structure EndpointDecl.Describes (name : String) (decl : EndpointDecl) (e : Endpoint) : Prop where
  name : e.name = name
  description : e.description = decl.description
  method : decl.method.elim (e.method = .get) fun word => Method.ofText? word = some e.method
  body : e.body = decl.body
  outputs : e.outputs.map (·.name) = decl.outputs
  location : match e.location with
    | .base url => decl.kind = "baseurl" ∧ decl.url = some url
    | .relative path base params =>
      decl.kind = "relativeurl" ∧ decl.relative = some path ∧ decl.base = some base.name ∧
        params.map (·.name) = decl.paramNames

structure ParamDecl.Describes (name : String) (decl : ParamDecl) (p : Param) : Prop where
  name : p.name = name
  description : p.description = decl.description
  type : p.type = decl.type
  resolver : p.resolver.name = decl.resolver

structure ResolverDecl.Describes (name : String) (decl : ResolverDecl) (r : Resolver) : Prop where
  name : r.name = name
  description : r.description = decl.description
  authentication : r.authentication = decl.authentication
  source : match r.source with
    | .endpoint e select =>
      decl.kind = "EndpointResolver" ∧ decl.endpoint = some e.name ∧ select = decl.select
    | .database connectionString table =>
      decl.kind = "DatabaseResolver" ∧ decl.connectionString = some connectionString ∧
        decl.table = some table

structure OutputDecl.Describes (name : String) (decl : OutputDecl) (o : Output) : Prop where
  name : o.name = name
  description : o.description = decl.description
  kind : OutputKind.ofText? decl.kind = some o.kind
  target : o.target = decl.target
  config : o.config = decl.config

/-- A node that says what is declared under its category and name. -/
inductive Declarations.Describes (c : Declarations) : Ref → Node → Prop
  | endpoint {name : String} {decl : EndpointDecl} {e : Endpoint}
    (declared : c.endpoints.find? name = some decl)
      (describes : decl.Describes name e) : Describes c (.endpoint, name) (.endpoint e)
  | param {name : String} {decl : ParamDecl} {p : Param}
    (declared : c.params.find? name = some decl)
      (describes : decl.Describes name p) : Describes c (.param, name) (.param p)
  | resolver {name : String} {decl : ResolverDecl} {r : Resolver}
    (declared : c.resolvers.find? name = some decl)
      (describes : decl.Describes name r) : Describes c (.resolver, name) (.resolver r)
  | output {name : String} {decl : OutputDecl} {o : Output}
    (declared : c.outputs.find? name = some decl)
      (describes : decl.Describes name o) : Describes c (.output, name) (.output o)

/-- A graph that resolves a template: it stores exactly what is declared, as it is declared, and
what a stored node holds at any depth is stored itself. -/
structure ResolutionGraph.Resolves (g : ResolutionGraph) (c : Declarations) : Prop where
  declares_iff : ∀ r, (∃ n, g.node? r = some n) ↔ c.Declares r
  describes : ∀ {r n}, g.node? r = some n → c.Describes r n
  holds : ∀ {r n}, g.node? r = some n → ∀ m, n.Holds m → g.node? m.ref = some m

namespace ResolutionGraph.Resolves

variable {g : ResolutionGraph} {c : Declarations} {name : String}

theorem endpoint (resolves : g.Resolves c) {e : Endpoint}
    (stored : g.endpoints.find? name = some e) :
    ∃ decl, c.endpoints.find? name = some decl ∧ decl.Describes name e := by
  have describes : c.Describes (.endpoint, name) (.endpoint e) :=
    resolves.describes (by simp [node?, stored])
  cases describes with
  | endpoint declared describes => exact ⟨_, declared, describes⟩

theorem param (resolves : g.Resolves c) {p : Param} (stored : g.params.find? name = some p) :
    ∃ decl, c.params.find? name = some decl ∧ decl.Describes name p := by
  have describes : c.Describes (.param, name) (.param p) :=
    resolves.describes (by simp [node?, stored])
  cases describes with
  | param declared describes => exact ⟨_, declared, describes⟩

theorem resolver (resolves : g.Resolves c) {r : Resolver}
    (stored : g.resolvers.find? name = some r) :
    ∃ decl, c.resolvers.find? name = some decl ∧ decl.Describes name r := by
  have describes : c.Describes (.resolver, name) (.resolver r) :=
    resolves.describes (by simp [node?, stored])
  cases describes with
  | resolver declared describes => exact ⟨_, declared, describes⟩

/-- The parameters that a stored endpoint holds are stored, too. -/
theorem holds_param (resolves : g.Resolves c) {e : Endpoint}
    (stored : g.endpoints.find? name = some e) {p : Param}
    (used : p ∈ e.params) : g.params.find? p.name = some p := by
  have inside := Node.param_mem_contents used
  have found := resolves.holds (r := (.endpoint, name)) (by simp [node?, stored]) _ (.single inside)
  simpa [node?, Node.ref] using found

/-- The resolver that supplies a stored parameter is stored, too. -/
theorem holds_supplier (resolves : g.Resolves c) {p : Param}
    (stored : g.params.find? name = some p) : g.resolvers.find? p.resolver.name = some p.resolver := by
  have inside : Node.resolver p.resolver ∈ (Node.param p).contents := List.mem_singleton_self _
  have found := resolves.holds (r := (.param, name)) (by simp [node?, stored]) _ (.single inside)
  simpa [node?, Node.ref] using found

/-- The endpoint that a stored resolver reads is stored, too. -/
theorem holds_source (resolves : g.Resolves c) {r : Resolver} {e : Endpoint}
    (stored : g.resolvers.find? name = some r) (reads : r.endpoint? = some e) :
    g.endpoints.find? e.name = some e := by
  have inside := Node.source_mem_contents reads
  have found := resolves.holds (r := (.resolver, name)) (by simp [node?, stored]) _ (.single inside)
  simpa [node?, Node.ref] using found

/-- Every node is stored under its own name. -/
theorem named (resolves : g.Resolves c) : g.Named := by
  intro r n stored
  cases resolves.describes stored with
  | endpoint _ describes => exact congrArg _ describes.name
  | param _ describes => exact congrArg _ describes.name
  | resolver _ describes => exact congrArg _ describes.name
  | output _ describes => exact congrArg _ describes.name

end ResolutionGraph.Resolves

/-! ## Placed nodes say what is declared -/

theorem EndpointDecl.methodOf_success {name : String} {decl : EndpointDecl} {method : Method}
    (success : decl.methodOf name = .ok method) :
    decl.method.elim (method = .get) fun word => Method.ofText? word = some method := by
  unfold EndpointDecl.methodOf at success
  split at success
  · rename_i absent
    cases success
    simp [absent]
  · rename_i word present
    split at success
    · rename_i known
      cases success
      simp [present, known]
    · cases success

theorem EndpointDecl.describes_of_yields {name : String} {decl : EndpointDecl} {method : Method}
    {shape : EndpointShape} {e : Endpoint} (shaped : decl.HasShape shape)
    (read : decl.methodOf name = .ok method)
    (yields : (Declared.endpoint decl method shape).Yields name (.endpoint e)) :
    decl.Describes name e := by
  obtain ⟨name_eq, description, rfl, body, outputs, location⟩ := yields
  refine ⟨name_eq, description, methodOf_success read, body, outputs, ?_⟩
  cases shape with
  | base url =>
    obtain ⟨kind, declared⟩ := shaped
    cases place : e.location with
    | base url' =>
      rw [place] at location
      cases location
      exact ⟨kind, declared⟩
    | relative path base params => simp [place, EndpointShape.Yields] at location
  | relative below path params =>
    obtain ⟨kind, base_declared, path_declared, rfl⟩ := shaped
    cases place : e.location with
    | base url => simp [place, EndpointShape.Yields] at location
    | relative path' base params' =>
      rw [place] at location
      obtain ⟨rfl, rfl, params_eq⟩ := location
      exact ⟨kind, path_declared, base_declared, params_eq⟩

theorem ResolverDecl.describes_of_yields {name : String} {decl : ResolverDecl}
    {shape : ResolverShape} {r : Resolver} (shaped : decl.HasShape shape)
    (yields : (Declared.resolver decl shape).Yields name (.resolver r)) :
    decl.Describes name r := by
  obtain ⟨name_eq, description, authentication, source⟩ := yields
  refine ⟨name_eq, description, authentication, ?_⟩
  cases shape with
  | endpoint endpoint =>
    obtain ⟨kind, declared⟩ := shaped
    cases place : r.source with
    | endpoint e select =>
      rw [place] at source
      obtain ⟨rfl, rfl⟩ := source
      exact ⟨kind, declared, rfl⟩
    | database connectionString table => simp [place, ResolverShape.Yields] at source
  | database connectionString table =>
    obtain ⟨kind, connection_declared, table_declared⟩ := shaped
    cases place : r.source with
    | endpoint e select => simp [place, ResolverShape.Yields] at source
    | database connectionString' table' =>
      rw [place] at source
      obtain ⟨rfl, rfl⟩ := source
      exact ⟨kind, connection_declared, table_declared⟩

theorem Declarations.Means.describes {c : Declarations} {r : Ref} {d : Declared} {n : Node}
    (means : c.Means r d)
    (yields : d.Yields r.2 n) : c.Describes r n := by
  cases means with
  | endpoint declared classified =>
    obtain ⟨method, shape, rfl, shaped, read⟩ := EndpointDecl.classify_success classified
    cases n with
    | endpoint e => exact .endpoint declared (EndpointDecl.describes_of_yields shaped read yields)
    | param | resolver | output => cases yields
  | @param name decl declared =>
    cases n with
    | param p =>
      obtain ⟨name_eq, description, type, resolver⟩ := yields
      exact .param declared ⟨name_eq, description, type, resolver⟩
    | endpoint | resolver | output => cases yields
  | resolver declared classified =>
    obtain ⟨shape, rfl, shaped⟩ := ResolverDecl.classify_success classified
    cases n with
    | resolver r => exact .resolver declared (ResolverDecl.describes_of_yields shaped yields)
    | endpoint | param | output => cases yields
  | output declared classified =>
    obtain ⟨kind, rfl, known⟩ := OutputDecl.classify_success classified
    cases n with
    | output o =>
      cases yields
      exact .output declared ⟨rfl, rfl, known, rfl, rfl⟩
    | endpoint | param | resolver => cases yields

/-! ## Outcomes of resolving -/

namespace Template

variable {t : Template} {g : ResolutionGraph}

/-- How resolving ends: a check fails, or the sweeps end with everything placed or with a cycle. -/
theorem resolveWithPasses_cases (t : Template) :
    (∃ e, t.config.classify = .error e ∧ t.resolveWithPasses = .error e) ∨
    (∃ declared e, t.config.classify = .ok declared ∧
      checkReferences (declared.map (·.1)) declared = .error e ∧
      t.resolveWithPasses = .error e) ∨
    ∃ declared, t.config.classify = .ok declared ∧ t.config.Closed ∧
      Settled declared t.resolveWithPasses := by
  cases success : t.config.classify with
  | error e => exact .inl ⟨e, rfl, by rw [resolveWithPasses, success]; rfl⟩
  | ok declared =>
    refine .inr ?_
    cases checked : checkReferences (declared.map (·.1)) declared with
    | error e =>
      refine .inl ⟨declared, e, rfl, checked, ?_⟩
      simp only [resolveWithPasses, success, bind, Except.bind, checked]
    | ok =>
      have closed : t.config.Closed := (Declarations.checkReferences_iff_closed success).mp checked
      exact .inr ⟨declared, rfl, closed, resolveWithPasses_settled success closed⟩

theorem resolve_success_iff :
    t.resolve = .ok g ↔ ∃ passes, t.resolveWithPasses = .ok (g, passes) := by
  unfold resolve
  cases t.resolveWithPasses with
  | error e => simp [Functor.map, Except.map]
  | ok result =>
    obtain ⟨g', passes⟩ := result
    simp [Functor.map, Except.map]

theorem resolve_progress (success : t.resolve = .ok g) :
    ∃ declared, t.config.classify = .ok declared ∧ t.config.Closed ∧ Progress declared [] g := by
  obtain ⟨passes, success⟩ := resolve_success_iff.mp success
  rcases t.resolveWithPasses_cases with ⟨e, -, failure⟩ | ⟨_, e, -, -, failure⟩ |
    ⟨declared, classified, closed, settled⟩
  · rw [success] at failure
    cases failure
  · rw [success] at failure
    cases failure
  · rw [success] at settled
    cases settled with
    | complete passes progress => exact ⟨declared, classified, closed, progress⟩

theorem resolve_resolves (success : t.resolve = .ok g) : g.Resolves t.config := by
  obtain ⟨declared, classified, -, progress⟩ := resolve_progress success
  refine ⟨fun r => ?_, fun {r n} stored => ?_, fun {r n} stored m within => ?_⟩
  · constructor
    · rintro ⟨n, stored⟩
      obtain ⟨d, member, -⟩ := progress.yields stored
      exact ((Declarations.mem_classify_iff classified).mp member).declares
    · intro declares
      have listed : r ∈ declared.map (·.1) := by
        rw [Declarations.classify_refs classified, Declarations.mem_refs]
        exact declares
      rw [progress.stored_iff listed]
      simp
  · obtain ⟨d, member, yields⟩ := progress.yields stored
    exact ((Declarations.mem_classify_iff classified).mp member).describes yields
  · exact ResolutionGraph.SelfContained.holds progress.contained stored within

/-- A graph that a template resolves to has exactly the declared nodes, says what they say and is
closed. Once the declarations classify and the references are checked, the one error left is a
cycle: whatever state the sweeps are in, placing what is ready succeeds. -/
theorem resolve_faithful (t : Template) :
    (∀ g, t.resolve = .ok g → g.Resolves t.config) ∧
      ∀ declared, t.config.classify = .ok declared →
        checkReferences (declared.map (·.1)) declared = .ok () →
        (∀ e, t.resolveWithPasses = .error e → ∃ remaining, e = .cyclicDependency remaining) ∧
        ∀ kept r d rest g, Visited declared kept ((r, d) :: rest) g →
          d.ready ((kept ++ (r, d) :: rest).map (·.1)) = true →
            ∃ g', g.placeDeclared r.2 d = .ok g' := by
  refine ⟨fun g success => resolve_resolves success, fun declared classified checked =>
    ⟨fun e failure => ?_, ?_⟩⟩
  · have closed : t.config.Closed := (Declarations.checkReferences_iff_closed classified).mp checked
    have settled := resolveWithPasses_settled classified closed
    rw [failure] at settled
    cases settled with
    | stuck progress nonempty waits => exact ⟨_, rfl⟩
  · intro kept r d rest g visited ready
    have closed : t.config.Closed := (Declarations.checkReferences_iff_closed classified).mp checked
    have referable := Declarations.referable_of_closed classified closed
    obtain ⟨g', placed, -⟩ := (visited.progress referable).place referable ready
    exact ⟨g', placed⟩

/-- A site with one endpoint below it. -/
def sited : Template where
  version := "1"
  kind := "api"
  config :=
    { endpoints :=
        (SortedMap.insert ∅ "site" { kind := "baseurl", url := some "http://site" }).insert "item"
          { kind := "relativeurl", base := some "site", relative := some "item" } }

theorem resolve_faithful_sited : ∃ g, sited.resolve = .ok g ∧ g.Resolves sited.config := by
  have succeeds : ∃ result, sited.resolveWithPasses = .ok result := by
    change ∃ result, settle _ {} 0 = .ok result
    unfold settle
    change ∃ result, settle [_] { endpoints := SortedMap.insert ∅ _ _ } 1 = .ok result
    unfold settle
    change ∃ result, settle [] { endpoints := SortedMap.insert (SortedMap.insert ∅ _ _) _ _ } 2 =
      .ok result
    unfold settle
    exact ⟨_, rfl⟩
  obtain ⟨⟨g, passes⟩, success⟩ := succeeds
  have resolved : sited.resolve = .ok g := resolve_success_iff.mpr ⟨passes, success⟩
  exact ⟨g, resolved, (resolve_faithful sited).1 g resolved⟩

end Template

end RestWiring

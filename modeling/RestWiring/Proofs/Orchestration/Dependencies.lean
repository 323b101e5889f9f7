import RestWiring.Proofs.Deployment.Plannable
import RestWiring.Proofs.Orchestration.Units

/-!
# Dependencies of derived graphs

What runs in a derived graph, and what runs before what, is said here on the resolved declarations
alone. The units of a resolution graph are selected by one rule and its dependencies by another; in a
resolved graph both ends of every dependency have a unit, so that deriving a graph never misses one.
-/
namespace RestWiring

namespace ResolutionGraph

/-- The qualified names of what is deployed as a function: every resolver, and every endpoint that
does not only serve as a base. -/
inductive Runs (g : ResolutionGraph) : String → Prop
  | resolver {name : String} {r : Resolver} (stored : g.resolvers.find? name = some r) :
      Runs g (Category.resolver.qualify name)
  | relative {name : String} {e : Endpoint} (stored : g.endpoints.find? name = some e)
      (relative : e.isRelative = true) : Runs g (Category.endpoint.qualify name)
  | notBase {name : String} {e : Endpoint} (stored : g.endpoints.find? name = some e)
      (notBase : ∀ {other t base}, g.endpoints.find? other = some t → t.base? = some base →
        base.name ≠ name) : Runs g (Category.endpoint.qualify name)
  | read {name reader : String} {e : Endpoint} {r : Resolver}
      (stored : g.endpoints.find? name = some e) (reading : g.resolvers.find? reader = some r)
      (reads : r.endpoint? = some e) : Runs g (Category.endpoint.qualify name)
  | writes {name : String} {e : Endpoint} (stored : g.endpoints.find? name = some e)
      (outputs : e.outputs ≠ []) : Runs g (Category.endpoint.qualify name)

/-- An endpoint runs before every resolver that reads it, and a resolver before every relative
endpoint that has a parameter of it. -/
inductive Precedes (g : ResolutionGraph) : String → String → Prop
  | reads {name : String} {r : Resolver} {e : Endpoint} (stored : g.resolvers.find? name = some r)
      (reads : r.endpoint? = some e) :
      Precedes g (Category.endpoint.qualify e.name) (Category.resolver.qualify name)
  | supplies {name : String} {t : Endpoint} {p : Param}
      (stored : g.endpoints.find? name = some t) (relative : t.isRelative = true)
      (listed : p ∈ t.params) :
      Precedes g (Category.resolver.qualify p.resolver.name) (Category.endpoint.qualify name)

variable {g : ResolutionGraph} {c : Declarations} {name a b : String} {e : Endpoint}

/-! ## Which resolvers feed an endpoint -/

/-- Every parameter is supplied by one of the resolvers that are kept, whichever node of a name is
the one. -/
theorem resolversOf_covers {params : List Param} {feeding : List Resolver} {supplier : String}
    (supplied : (∃ r ∈ feeding, r.name = supplier) ∨ ∃ p ∈ params, p.resolver.name = supplier) :
    ∃ r ∈ resolversOf params feeding, r.name = supplier := by
  induction params generalizing feeding with
  | nil => simpa [resolversOf] using supplied
  | cons p params ih =>
    rw [resolversOf]
    split
    · rename_i known
      obtain ⟨r, kept, same⟩ := List.any_eq_true.mp known
      refine ih ?_
      rcases supplied with kept' | ⟨q, listed, named⟩
      · exact .inl kept'
      · rcases List.mem_cons.mp listed with rfl | later
        · exact .inl ⟨r, kept, (beq_iff_eq.mp same).trans named⟩
        · exact .inr ⟨q, later, named⟩
    · refine ih ?_
      rcases supplied with ⟨r, kept, named⟩ | ⟨q, listed, named⟩
      · exact .inl ⟨r, List.mem_append_left _ kept, named⟩
      · rcases List.mem_cons.mp listed with rfl | later
        · exact .inl ⟨q.resolver, List.mem_append_right _ (List.mem_singleton_self _), named⟩
        · exact .inr ⟨q, later, named⟩

/-- The resolvers that feed an endpoint are, by name, those of its parameters. -/
theorem exists_feeding_iff {supplier : String} :
    (∃ r ∈ resolversFeeding e, r.name = supplier) ↔ ∃ p ∈ e.params, p.resolver.name = supplier := by
  constructor
  · rintro ⟨r, feeds, named⟩
    rcases mem_resolversOf feeds with kept | ⟨p, listed, equal⟩
    · cases kept
    · exact ⟨p, listed, equal ▸ named⟩
  · exact fun supplied => resolversOf_covers (.inr supplied)

/-! ## Units and dependencies -/

/-- An endpoint has no unit exactly if it serves as a base, is not read and writes nothing. -/
theorem isBaseOnly_iff : FunctionUnit.isBaseOnly g e = true ↔
    e.isRelative = false ∧
    (∃ other t base, g.endpoints.find? other = some t ∧ t.base? = some base ∧ base.name = e.name) ∧
    (∀ reader r s, g.resolvers.find? reader = some r → r.endpoint? = some s → s.name ≠ e.name) ∧
    e.outputs = [] := by
  unfold FunctionUnit.isBaseOnly resolversReading
  simp only [Bool.and_eq_true, Bool.not_eq_true', List.any_eq_true, Option.any_eq_true, beq_iff_eq,
    List.isEmpty_iff, List.filter_eq_nil_iff, SortedMap.mem_values, and_assoc]
  refine and_congr_right' (and_congr ?_ (and_congr_left' ?_))
  · constructor
    · rintro ⟨t, ⟨other, stored⟩, base, below, named⟩
      exact ⟨other, t, base, stored, below, named⟩
    · rintro ⟨other, t, base, stored, below, named⟩
      exact ⟨t, ⟨other, stored⟩, base, below, named⟩
  · constructor
    · exact fun unread reader r s stored reads named => unread r ⟨reader, stored⟩ ⟨s, reads, named⟩
    · rintro unread r ⟨reader, stored⟩ ⟨s, reads, named⟩
      exact unread reader r s stored reads named

/-- The units of a resolved graph are called as what runs. -/
theorem Resolves.mem_collect (resolves : g.Resolves c) :
    name ∈ (FunctionUnit.collect g).map (·.qualified) ↔ g.Runs name := by
  have named : g.Named := resolves.named
  unfold FunctionUnit.collect
  simp only [List.map_append, List.map_map, List.mem_append, List.mem_map, List.mem_filter,
    SortedMap.mem_values, Bool.not_eq_true']
  constructor
  · rintro (⟨e, ⟨⟨name, stored⟩, called⟩, rfl⟩ | ⟨r, ⟨name, stored⟩, rfl⟩)
    · change g.Runs (Category.endpoint.qualify e.name)
      obtain rfl := named.endpoint stored
      by_contra idle
      refine Bool.eq_false_iff.mp called (isBaseOnly_iff.mpr ⟨?_, ?_, ?_, ?_⟩)
      · exact Bool.eq_false_iff.mpr fun relative => idle (.relative stored relative)
      · by_contra none
        exact idle (.notBase stored fun stored' below same => none ⟨_, _, _, stored', below, same⟩)
      · intro reader r s reading reads same
        have source := resolves.holds_source reading reads
        rw [same, stored] at source
        cases source
        exact idle (.read stored reading reads)
      · by_contra outputs
        exact idle (.writes stored outputs)
    · change g.Runs (Category.resolver.qualify r.name)
      rw [named.resolver stored]
      exact .resolver stored
  · have unit {name : String} {e : Endpoint} (stored : g.endpoints.find? name = some e)
        (called : FunctionUnit.isBaseOnly g e ≠ true) :
        ∃ e, ((∃ k, g.endpoints.find? k = some e) ∧ FunctionUnit.isBaseOnly g e = false) ∧
          (FunctionUnit.ofEndpoint g e).qualified = Category.endpoint.qualify name := by
      refine ⟨e, ⟨⟨name, stored⟩, Bool.eq_false_iff.mpr called⟩, ?_⟩
      rw [← named.endpoint stored]
      rfl
    intro runs
    cases runs with
    | @resolver name r stored =>
      refine .inr ⟨r, ⟨name, stored⟩, ?_⟩
      rw [← named.resolver stored]
      rfl
    | relative stored relative =>
      refine .inl (unit stored fun only => ?_)
      rw [(isBaseOnly_iff.mp only).1] at relative
      cases relative
    | notBase stored notBase =>
      refine .inl (unit stored fun only => ?_)
      obtain ⟨other, t, base, stored', below, same⟩ := (isBaseOnly_iff.mp only).2.1
      exact notBase stored' below (same.trans (named.endpoint stored))
    | read stored reading reads =>
      exact .inl (unit stored fun only => (isBaseOnly_iff.mp only).2.2.1 _ _ _ reading reads rfl)
    | writes stored outputs =>
      exact .inl (unit stored fun only => outputs (isBaseOnly_iff.mp only).2.2.2)

/-- The dependencies of a resolved graph are the pairs of which the first runs before the second. -/
theorem Resolves.mem_dependencies (resolves : g.Resolves c) :
    (a, b) ∈ dependencies g ↔ g.Precedes a b := by
  have named : g.Named := resolves.named
  unfold dependencies
  simp only [List.mem_append, List.mem_filterMap, List.mem_flatMap, List.mem_map, List.mem_filter,
    SortedMap.mem_values, Option.map_eq_some_iff, Prod.mk.injEq]
  constructor
  · rintro (⟨r, ⟨name, stored⟩, e, reads, rfl, rfl⟩ |
      ⟨t, ⟨⟨name, stored⟩, relative⟩, r, feeds, rfl, rfl⟩)
    · rw [named.resolver stored]
      exact .reads stored reads
    · obtain ⟨p, listed, supplier⟩ := exists_feeding_iff.mp ⟨r, feeds, rfl⟩
      rw [named.endpoint stored, ← supplier]
      exact .supplies stored relative listed
  · rintro (⟨stored, reads⟩ | ⟨stored, relative, listed⟩)
    · exact .inl ⟨_, ⟨_, stored⟩, _, reads, rfl, by rw [named.resolver stored]⟩
    · obtain ⟨r, feeds, supplier⟩ := exists_feeding_iff.mpr ⟨_, listed, rfl⟩
      exact .inr ⟨_, ⟨⟨_, stored⟩, relative⟩, r, feeds, by rw [supplier],
        by rw [named.endpoint stored]⟩

/-- What runs before or after something runs itself. -/
theorem Precedes.runs (resolves : g.Resolves c) (precedes : g.Precedes a b) :
    g.Runs a ∧ g.Runs b := by
  cases precedes with
  | reads stored reads =>
    exact ⟨.read (resolves.holds_source stored reads) stored reads, .resolver stored⟩
  | supplies stored relative listed =>
    have supplied := resolves.holds_param stored listed
    exact ⟨.resolver (resolves.holds_supplier supplied), .relative stored relative⟩

end ResolutionGraph

/-! ## Deriving the graph -/

theorem OrchestrationGraph.addEdge_succeeds {g : OrchestrationGraph} {start target : String}
    {params : EdgeParams}
    (first : g.contains start = true) (second : g.contains target = true) :
    ∃ g', g.addEdge start target params = .ok g' := by
  rw [addEdge_eq, checkEnds, if_neg (by simp [first]), if_neg (by simp [second])]
  exact ⟨_, rfl⟩

/-- Edges between nodes that are there can all be added. -/
theorem addEdges_succeeds {pairs : List (String × String)} {g : OrchestrationGraph}
    (directed : g.directed = true)
    (ends : ∀ e ∈ pairs, g.contains e.1 = true ∧ g.contains e.2 = true) :
    ∃ g', addEdges pairs g = .ok g' := by
  induction pairs generalizing g with
  | nil => exact ⟨g, rfl⟩
  | cons pair pairs ih =>
    obtain ⟨first, second⟩ := ends pair List.mem_cons_self
    obtain ⟨next, added⟩ : ∃ next, g.addEdge pair.1 pair.2 {} = .ok next :=
      OrchestrationGraph.addEdge_succeeds first second
    obtain ⟨nodes, directed', -⟩ := OrchestrationGraph.addEdge_success directed added
    obtain ⟨g', success⟩ := ih directed' fun e listed => by
      rw [OrchestrationGraph.contains, OrchestrationGraph.contains, nodes]
      exact ends e (List.mem_cons_of_mem _ listed)
    exact ⟨g', by rw [addEdges, added]; exact success⟩

section Derived

variable {config : CompilerConfig} {graph : ResolutionGraph} {files files' : FileStore}
  {c : Declarations} {e : OrchestrationError}

/-- Units are refused for a name or an identity that is taken, or because they do not compile. -/
theorem addUnits_failure {units : List FunctionUnit} {uids : SortedSet String}
    {g : OrchestrationGraph}
    (failure : addUnits config units uids g files = (.error e, files')) :
    (∃ name, e = .duplicateNode name) ∨ ∃ cause, e = .compilation cause := by
  induction units generalizing uids g files with
  | nil => cases failure
  | cons unit units ih =>
    rw [addUnits] at failure
    split at failure
    · cases failure
      exact .inl ⟨_, rfl⟩
    · split at failure
      · cases failure
        exact .inr ⟨_, rfl⟩
      · exact ih failure

/-- Once all units of a resolved graph are added, so are all dependencies. -/
theorem addEdges_dependencies_succeeds {nodes : OrchestrationGraph}
    (resolves : graph.Resolves c)
    (added : addUnits config (FunctionUnit.collect graph) ∅ {} files = (.ok nodes, files')) :
    ∃ g, addEdges (dependencies graph) nodes = .ok g := by
  have renders : nodes.Renders config ([] ++ FunctionUnit.collect graph) :=
    (OrchestrationGraph.Renders.empty config).addUnits (by simp) added
  have contained {name : String} (runs : graph.Runs name) : nodes.contains name = true :=
    renders.contains_iff.mpr (resolves.mem_collect.mpr runs)
  refine addEdges_succeeds (addUnits_frame added (.empty true)).2.1 fun ⟨start, target⟩ listed => ?_
  have runs := (resolves.mem_dependencies.mp listed).runs resolves
  exact ⟨contained runs.1, contained runs.2⟩

/-- What a resolved graph asks for fails with a name that is taken or with a unit that does not
compile, never with an end of an edge. -/
theorem orchestrate_failure (resolves : graph.Resolves c)
    (failure : (orchestrate config graph files).1 = .error e) :
    (∃ name, e = .duplicateNode name) ∨ ∃ cause, e = .compilation cause := by
  unfold orchestrate at failure
  split at failure
  · rename_i added
    cases failure
    exact addUnits_failure added
  · rename_i added
    obtain ⟨g, success⟩ := addEdges_dependencies_succeeds resolves added
    rw [success] at failure
    cases failure

/-- From resolved declarations a graph is derived unless a name is taken or a unit does not compile.
Its nodes are what runs, which are the units, and its edges lead with the usual settings from what
runs to what runs next. -/
theorem orchestrate_dependencies (t : Template) (graph : ResolutionGraph)
    (resolved : t.resolve = .ok graph) (config : CompilerConfig) (files : FileStore) :
    (∀ e, (orchestrate config graph files).1 = .error e →
      (∃ name, e = .duplicateNode name) ∨ ∃ cause, e = .compilation cause) ∧
    ∀ o, (orchestrate config graph files).1 = .ok o →
      o.directed = true ∧
      (∀ name, o.contains name = true ↔ name ∈ (FunctionUnit.collect graph).map (·.qualified)) ∧
      (∀ name, o.contains name = true ↔ graph.Runs name) ∧
      ∀ start target params, o.edges.find? (start, target) = some params ↔
        graph.Precedes start target ∧ params = {} := by
  have resolves := Template.resolve_resolves resolved
  refine ⟨fun e failure => orchestrate_failure resolves failure, fun o success => ?_⟩
  obtain ⟨-, directed, edges⟩ := orchestrate_success success
  have renders := orchestrate_renders success
  refine ⟨directed, fun name => renders.contains_iff, fun name => ?_, fun start target params => ?_⟩
  · rw [renders.contains_iff, resolves.mem_collect]
  · rw [edges]
    split
    · rename_i listed
      simp [resolves.mem_dependencies.mp listed, eq_comm]
    · rename_i unlisted
      exact iff_of_false (Option.some_ne_none _ ∘ Eq.symm)
        fun precedes => unlisted (resolves.mem_dependencies.mpr precedes.1)

end Derived

/-- An item whose number is taken from a list; both stand below a site that is never called. -/
def Template.listed : Template where
  version := "1"
  kind := "api"
  config :=
    { endpoints :=
        ((SortedMap.insert ∅ "site" { kind := "baseurl", url := some "http://site" }).insert "list"
          { kind := "relativeurl", base := some "site", relative := some "list" }).insert "item"
          { kind := "relativeurl", base := some "site", relative := some "item",
            params := [.name "id"] }
      params := SortedMap.insert ∅ "id" { resolver := "ids" }
      resolvers :=
        SortedMap.insert ∅ "ids" { kind := "EndpointResolver", endpoint := some "list" } }

theorem Template.exists_listed : ∃ graph o item, listed.resolve = .ok graph ∧
    (orchestrate { codeRoot := "/code" } graph {}).1 = .ok o ∧
    o.names = ["endpoint:item", "endpoint:list", "resolver:ids"] ∧ o.roots = ["endpoint:list"] ∧
    o.edges.keys = [("endpoint:list", "resolver:ids"), ("resolver:ids", "endpoint:item")] ∧
    graph.endpoints.find? "item" = some item ∧ item.isRelative = true ∧
    item.params.map (·.name) = ["id"] := by
  have derived : (listed.resolve.toOption.bind fun graph =>
      (orchestrate { codeRoot := "/code" } graph {}).1.toOption.bind fun o =>
        (graph.endpoints.find? "item").map fun item =>
          (o.names, o.roots, o.edges.keys, item.isRelative, item.params.map (·.name))) =
      some (["endpoint:item", "endpoint:list", "resolver:ids"], ["endpoint:list"],
        [("endpoint:list", "resolver:ids"), ("resolver:ids", "endpoint:item")], true, ["id"]) := by
    decide +kernel
  obtain ⟨graph, resolved, derived⟩ := Option.bind_eq_some_iff.mp derived
  obtain ⟨o, orchestrated, derived⟩ := Option.bind_eq_some_iff.mp derived
  obtain ⟨item, stored, equal⟩ := Option.map_eq_some_iff.mp derived
  simp only [Prod.mk.injEq] at equal
  obtain ⟨names, roots, edges, relative, params⟩ := equal
  exact ⟨graph, o, item, toOption_eq_some_iff.mp resolved, toOption_eq_some_iff.mp orchestrated,
    names, roots, edges, stored, relative, params⟩

theorem orchestrate_dependencies_listed : ∃ graph o, Template.listed.resolve = .ok graph ∧
    (orchestrate { codeRoot := "/code" } graph {}).1 = .ok o ∧
    o.names = ["endpoint:item", "endpoint:list", "resolver:ids"] ∧
    o.edges.keys = [("endpoint:list", "resolver:ids"), ("resolver:ids", "endpoint:item")] ∧
    graph.Precedes "endpoint:list" "resolver:ids" ∧
    graph.Precedes "resolver:ids" "endpoint:item" ∧ ¬ graph.Runs "endpoint:site" := by
  obtain ⟨graph, o, -, resolved, orchestrated, names, -, edges, -⟩ := Template.exists_listed
  obtain ⟨-, -, runs, precedes⟩ := (orchestrate_dependencies Template.listed graph resolved
    { codeRoot := "/code" } {}).2 o orchestrated
  have edge {start target : String} (listed : (start, target) ∈ o.edges.keys) :
      graph.Precedes start target := by
    obtain ⟨params, found⟩ := SortedMap.mem_keys.mp listed
    exact ((precedes start target params).mp found).1
  refine ⟨graph, o, resolved, orchestrated, names, edges, edge (by simp [edges]),
    edge (by simp [edges]), fun site => ?_⟩
  have listed := SortedMap.mem_keys_iff_contains.mpr ((runs "endpoint:site").mpr site)
  change _ ∈ o.names at listed
  simp [names] at listed

end RestWiring

import RestWiring.Proofs.Orchestration.Dependencies
import RestWiring.Proofs.Orchestration.Traversal

/-!
# Suppliers of parameters

In a derived graph a parameter of an endpoint is fed by exactly one of the nodes just before the
endpoint, and none of these is there for nothing. Nothing comes before what needs neither a parameter
nor an endpoint to read, and everything else comes after such a beginning, for references have no
cycle.
-/
namespace RestWiring

open Relation
open OrchestrationGraph (neighbours)

theorem Category.qualify_inj {category category' : Category} {name name' : String} :
    category.qualify name = category'.qualify name' ↔ category = category' ∧ name = name' := by
  constructor
  · intro same
    have refs : ((category, name) : Ref) = (category', name') := Ref.text_injective same
    exact Prod.mk.inj refs
  · rintro ⟨rfl, rfl⟩
    rfl

namespace ResolutionGraph

/-- Whether the unit of a name lists a parameter among those that it feeds. -/
def Feeds (g : ResolutionGraph) (name param : String) : Prop :=
  ∃ r feeds, .supply r feeds ∈ FunctionUnit.collect g ∧
    (FunctionUnit.supply r feeds).qualified = name ∧ param ∈ feeds

/-- What runs without waiting for anything: endpoints without parameters, and resolvers that read a
table. -/
inductive Starts (g : ResolutionGraph) : String → Prop
  | endpoint {name : String} {e : Endpoint} (stored : g.endpoints.find? name = some e)
      (free : e.params = []) : Starts g (Category.endpoint.qualify name)
  | database {name connectionString table : String} {r : Resolver}
      (stored : g.resolvers.find? name = some r)
      (source : r.source = .database connectionString table) :
      Starts g (Category.resolver.qualify name)

variable {g : ResolutionGraph} {c : Declarations} {name a b : String} {e : Endpoint} {r : Resolver}

theorem isRelative_of_mem_params {p : Param} (listed : p ∈ e.params) : e.isRelative = true := by
  unfold Endpoint.params at listed
  unfold Endpoint.isRelative
  split at listed
  · cases listed
  · rfl

/-- Resolvers that read no endpoint read a table. -/
theorem endpoint?_eq_none_iff :
    r.endpoint? = none ↔ ∃ connectionString table, r.source = .database connectionString table := by
  unfold Resolver.endpoint?
  cases r.source <;> simp

/-! ## What comes just before -/

/-- Just before an endpoint come the resolvers of its parameters. -/
theorem precedes_endpoint_iff (stored : g.endpoints.find? name = some e) :
    g.Precedes a (Category.endpoint.qualify name) ↔
      ∃ p ∈ e.params, a = Category.resolver.qualify p.resolver.name := by
  constructor
  · intro precedes
    generalize target : Category.endpoint.qualify name = b at precedes
    cases precedes with
    | reads => cases (Category.qualify_inj.mp target).1
    | supplies stored' relative listed =>
      cases (Category.qualify_inj.mp target).2
      cases stored.symm.trans stored'
      exact ⟨_, listed, rfl⟩
  · rintro ⟨p, listed, rfl⟩
    exact .supplies stored (isRelative_of_mem_params listed) listed

/-- Just before a resolver comes the endpoint that it reads. -/
theorem precedes_resolver_iff (stored : g.resolvers.find? name = some r) :
    g.Precedes a (Category.resolver.qualify name) ↔
      ∃ s, r.endpoint? = some s ∧ a = Category.endpoint.qualify s.name := by
  constructor
  · intro precedes
    generalize target : Category.resolver.qualify name = b at precedes
    cases precedes with
    | reads stored' reads =>
      cases (Category.qualify_inj.mp target).2
      cases stored.symm.trans stored'
      exact ⟨_, reads, rfl⟩
    | supplies => cases (Category.qualify_inj.mp target).1
  · rintro ⟨s, reads, rfl⟩
    exact .reads stored reads

/-- Nothing comes before what runs at the beginning, and something before all else that runs. -/
theorem Runs.starts_iff (runs : g.Runs name) : g.Starts name ↔ ∀ a, ¬ g.Precedes a name := by
  have endpoint {name : String} {e : Endpoint} (stored : g.endpoints.find? name = some e) :
      g.Starts (Category.endpoint.qualify name) ↔
        ∀ a, ¬ g.Precedes a (Category.endpoint.qualify name) := by
    simp only [precedes_endpoint_iff stored]
    constructor
    · intro starts
      generalize same : Category.endpoint.qualify name = start at starts
      cases starts with
      | endpoint stored' free =>
        cases (Category.qualify_inj.mp same).2
        cases stored.symm.trans stored'
        simp [free]
      | database => cases (Category.qualify_inj.mp same).1
    · intro free
      refine .endpoint stored (List.eq_nil_iff_forall_not_mem.mpr fun p listed => ?_)
      exact free _ ⟨p, listed, rfl⟩
  cases runs with
  | @resolver name r stored =>
    simp only [precedes_resolver_iff stored]
    constructor
    · intro starts
      generalize same : Category.resolver.qualify name = start at starts
      cases starts with
      | endpoint => cases (Category.qualify_inj.mp same).1
      | database stored' source =>
        cases (Category.qualify_inj.mp same).2
        cases stored.symm.trans stored'
        simp [endpoint?_eq_none_iff.mpr ⟨_, _, source⟩]
    · intro free
      have none : r.endpoint? = none :=
        Option.eq_none_iff_forall_ne_some.mpr fun s reads => free _ ⟨s, reads, rfl⟩
      obtain ⟨_, _, source⟩ := endpoint?_eq_none_iff.mp none
      exact .database stored source
  | relative stored | notBase stored | read stored | writes stored => exact endpoint stored

namespace Resolves

/-- A parameter is fed by its resolver and by no other one. -/
theorem feeds_iff (resolves : g.Resolves c) {p : Param} (stored : g.params.find? p.name = some p) :
    g.Feeds name p.name ↔ name = Category.resolver.qualify p.resolver.name := by
  have named : g.Named := resolves.named
  unfold Feeds
  constructor
  · rintro ⟨r, feeds, collected, rfl, fed⟩
    rcases List.mem_append.mp collected with calls | supplies
    · obtain ⟨e, -, equal⟩ := List.mem_map.mp calls
      cases equal
    · obtain ⟨r, -, equal⟩ := List.mem_map.mp supplies
      cases equal
      obtain ⟨q, listed, same⟩ := List.mem_map.mp fed
      obtain ⟨inside, supplier⟩ := List.mem_filter.mp listed
      obtain ⟨k, stored'⟩ := SortedMap.mem_values.mp inside
      rw [← named.param stored', same, stored] at stored'
      cases stored'
      exact congrArg Category.resolver.qualify (beq_iff_eq.mp supplier).symm
  · rintro rfl
    have supplier := resolves.holds_supplier stored
    refine ⟨p.resolver, _, List.mem_append_right _ (List.mem_map.mpr ⟨p.resolver,
      SortedMap.mem_values.mpr ⟨_, supplier⟩, rfl⟩), rfl, List.mem_map.mpr ⟨p, ?_, rfl⟩⟩
    exact List.mem_filter.mpr ⟨SortedMap.mem_values.mpr ⟨_, stored⟩, beq_self_eq_true _⟩

/-- Everything that runs comes after something that runs at the beginning. -/
theorem exists_starts (resolves : g.Resolves c) (acyclic : ∀ r, ¬ TransGen c.Refers r r)
    (runs : g.Runs name) :
    ∃ start, g.Runs start ∧ g.Starts start ∧ ReflTransGen g.Precedes start name := by
  have collected {name : String} : name ∈ (FunctionUnit.collect g).map (·.qualified) ↔ g.Runs name :=
    resolves.mem_collect
  have endless (a : String) : ¬ TransGen g.Precedes a a := fun cycle =>
    dependencies_acyclic resolves acyclic
      (TransGen.mono (fun _ _ precedes => resolves.mem_dependencies.mpr precedes) _ _ cycle)
  obtain ⟨start, listed, first, path⟩ := exists_first_of_acyclic
    (fun a _ b precedes => collected.mpr (precedes.runs resolves).1) endless (collected.mpr runs)
  have running := collected.mp listed
  exact ⟨start, running, running.starts_iff.mpr first, path⟩

end Resolves

end ResolutionGraph

/-! ## Derived graphs -/

section Derived

variable {t : Template} {graph : ResolutionGraph} {config : CompilerConfig} {files : FileStore}
  {o : OrchestrationGraph} {name start target a : String} {e : Endpoint}
  (resolved : t.resolve = .ok graph) (orchestrated : (orchestrate config graph files).1 = .ok o)
include resolved orchestrated

theorem contains_iff_runs : o.contains name = true ↔ graph.Runs name := by
  rw [(orchestrate_renders orchestrated).contains_iff,
    (Template.resolve_resolves resolved).mem_collect]

theorem edge_iff_precedes : o.edges.contains (start, target) = true ↔ graph.Precedes start target := by
  rw [SortedMap.contains_iff, ← (Template.resolve_resolves resolved).mem_dependencies,
    (orchestrate_success orchestrated).2.2]
  split <;> simp_all

theorem mem_predecessors_iff : a ∈ neighbours o.predecessors target ↔ graph.Precedes a target := by
  obtain ⟨built, directed, -⟩ := orchestrate_success orchestrated
  rw [built.wellFormed.predecessors_iff, OrchestrationGraph.edgeKey_of_directed directed,
    edge_iff_precedes resolved orchestrated]

/-- Of the nodes just before an endpoint exactly one feeds a given parameter of it. -/
theorem existsUnique_supplier (stored : graph.endpoints.find? name = some e) {p : Param}
    (listed : p ∈ e.params) :
    ∃! n, n ∈ neighbours o.predecessors (Category.endpoint.qualify name) ∧ graph.Feeds n p.name := by
  have resolves := Template.resolve_resolves resolved
  have feeds {n : String} : graph.Feeds n p.name ↔ n = Category.resolver.qualify p.resolver.name :=
    resolves.feeds_iff (resolves.holds_param stored listed)
  refine ⟨Category.resolver.qualify p.resolver.name, ⟨?_, feeds.mpr rfl⟩, fun n supplies =>
    feeds.mp supplies.2⟩
  exact (mem_predecessors_iff resolved orchestrated).mpr
    ((ResolutionGraph.precedes_endpoint_iff stored).mpr ⟨p, listed, rfl⟩)

/-- Every node just before an endpoint feeds a parameter of it. -/
theorem exists_fed (stored : graph.endpoints.find? name = some e)
    (before : a ∈ neighbours o.predecessors (Category.endpoint.qualify name)) :
    ∃ p ∈ e.params, graph.Feeds a p.name := by
  have resolves := Template.resolve_resolves resolved
  obtain ⟨p, listed, rfl⟩ := (ResolutionGraph.precedes_endpoint_iff stored).mp
    ((mem_predecessors_iff resolved orchestrated).mp before)
  exact ⟨p, listed, (resolves.feeds_iff (resolves.holds_param stored listed)).mpr rfl⟩

/-- Just before a resolver that reads an endpoint comes this endpoint alone. -/
theorem predecessors_resolver {r : Resolver} (stored : graph.resolvers.find? name = some r)
    (reads : r.endpoint? = some e) :
    neighbours o.predecessors (Category.resolver.qualify name) =
      [Category.endpoint.qualify e.name] := by
  refine List.perm_singleton.mp ((List.perm_ext_iff_of_nodup ?_ (List.nodup_singleton _)).mpr
    fun n => ?_)
  · exact OrchestrationGraph.neighbours_nodup o.predecessors _
  · rw [mem_predecessors_iff resolved orchestrated, ResolutionGraph.precedes_resolver_iff stored,
      List.mem_singleton]
    simp [reads]

/-- Nothing comes before the nodes that run at the beginning. -/
theorem mem_roots_iff_starts :
    name ∈ o.roots ↔ o.contains name = true ∧ graph.Starts name := by
  obtain ⟨built, directed, -⟩ := orchestrate_success orchestrated
  rw [built.wellFormed.mem_roots]
  refine and_congr_right fun present => ?_
  rw [((contains_iff_runs resolved orchestrated).mp present).starts_iff]
  refine forall_congr' fun a => ?_
  rw [OrchestrationGraph.edgeKey_of_directed directed, ← edge_iff_precedes resolved orchestrated,
    Bool.not_eq_true]

/-- Every node comes after one at the beginning, along edges. -/
theorem exists_root_path (present : o.contains name = true) :
    ∃ root ∈ o.roots, ReflTransGen (fun a b => o.edges.contains (a, b) = true) root name := by
  have runs_iff {name : String} : o.contains name = true ↔ graph.Runs name :=
    contains_iff_runs resolved orchestrated
  obtain ⟨root, runs, starts, path⟩ := (Template.resolve_resolves resolved).exists_starts
    (Template.resolve_acyclic resolved) (runs_iff.mp present)
  exact ⟨root, (mem_roots_iff_starts resolved orchestrated).mpr ⟨runs_iff.mpr runs, starts⟩,
    ReflTransGen.mono (fun _ _ => (edge_iff_precedes resolved orchestrated).mpr) _ _ path⟩

end Derived

end RestWiring

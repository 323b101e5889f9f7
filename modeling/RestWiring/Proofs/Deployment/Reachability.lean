import RestWiring.Proofs.Deployment.Parts
import RestWiring.Proofs.Orchestration.Suppliers

/-!
# Functions that are set off

On a backend that realises a graph a function has a trigger exactly if an edge leads to its node, and a
path of edges is a path of triggers. What is derived from a template is therefore set off, function by
function, from those that start: the calls without parameters and the readers of tables.
-/
namespace RestWiring

open Relation
open OrchestrationGraph (neighbours)

variable {g : OrchestrationGraph} {channel name uid : String} {plan : DeploymentPlan}
  {done : List Job} {cs : Constructs} {n : OrchestrationNode} {f : ConstructRecord}

/-- Whether a function is set off by another one, on any of its outcomes. -/
def SetOffBy (cs : Constructs) (channel source uid : String) : Prop :=
  ∃ o, Subscribes cs channel source uid o

/-- How the functions of a backend are set off when some nodes of a graph start by themselves: the
functions of these nodes are those without a trigger, and triggers lead from them to all others. -/
structure SetOffFrom (starts : String → Prop) (g : OrchestrationGraph) (channel : String)
    (cs : Constructs) : Prop where
  functions_iff : ∀ uid, cs.contains (.function, uid) = true ↔
    ∃ name n, g.node? name = some n ∧ n.uid = uid
  untriggered_iff : ∀ {uid f}, cs.find? (.function, uid) = some f →
    (f.triggers = [] ↔ ∃ name n, g.node? name = some n ∧ n.uid = uid ∧ starts name)
  reached : ∀ {uid f}, cs.find? (.function, uid) = some f →
    ∃ source h, cs.find? (.function, source) = some h ∧ h.triggers = [] ∧
      ReflTransGen (SetOffBy cs channel) source uid

section Realised

variable (formed : g.WellFormed) (planned : g.plan channel = .ok plan)
  (all : ∀ job, job ∈ done ↔ PlannedJob g channel job) (realises : Realises done cs)
  (distinct : g.DistinctUids)
include formed planned all realises distinct

/-- A function has a trigger if a triggering edge leads to its node. -/
theorem triggers_eq_nil_iff (node : g.node? name = some n)
    (found : cs.find? (.function, n.uid) = some f) :
    f.triggers = [] ↔ ∀ a, ¬ g.Triggers a name := by
  rw [List.eq_nil_iff_forall_not_mem]
  simp only [realises.triggers_iff found, all, plannedSubscribe_iff formed planned]
  constructor
  · rintro untriggered a ⟨params, edge, triggers⟩
    obtain ⟨m, start⟩ :=
      SortedMap.contains_iff.mp (formed.ends (SortedMap.contains_iff.mpr ⟨params, edge⟩)).1
    exact untriggered _ ⟨_, ⟨_, params, edge, triggers, m, n, start, node, rfl⟩, rfl, rfl⟩
  · rintro unled trigger ⟨_, ⟨⟨a, b⟩, params, edge, triggers, m, k, -, target, rfl⟩, same, -⟩
    cases distinct target node same
    exact unled a ⟨params, edge, triggers⟩

/-- A path of edges with the usual settings is a path of triggers. -/
theorem setOffBy_of_path (usual : ∀ {e params}, g.edges.find? e = some params → params = {})
    (directed : g.directed = true) {root : String} {m : OrchestrationNode}
    (start : g.node? root = some m) (stop : g.node? name = some n)
    (path : ReflTransGen (fun a b => g.edges.contains (a, b) = true) root name) :
    ReflTransGen (SetOffBy cs channel) m.uid n.uid := by
  induction path generalizing n with
  | refl =>
    cases start.symm.trans stop
    exact .refl
  | @tail b name _ last ih =>
    obtain ⟨k, between⟩ := SortedMap.contains_iff.mp (formed.ends last).1
    obtain ⟨params, edge⟩ := SortedMap.contains_iff.mp last
    cases usual edge
    refine (ih between).tail ⟨.success, (subscribes_iff formed planned all realises).mpr ?_⟩
    refine (exists_wired_iff_edge formed planned distinct between stop).mpr ⟨{}, ?_, rfl, ?_⟩
    · rw [OrchestrationGraph.edge?, OrchestrationGraph.edgeKey_of_directed directed, edge]
    · exact List.mem_singleton_self _

end Realised

/-! ## Deployed templates -/

section Derived

variable {t : Template} {graph : ResolutionGraph} {config : CompilerConfig} {files : FileStore}
  {o : OrchestrationGraph}
  (orchestrated : (orchestrate config graph files).1 = .ok o)
include orchestrated

theorem edge_usual {e : String × String} {params : EdgeParams}
    (found : o.edges.find? e = some params) : params = {} := by
  rw [(orchestrate_success orchestrated).2.2] at found
  split at found
  · exact (Option.some.inj found).symm
  · cases found

/-- Where a derived graph is realised, functions are set off from those that start. -/
theorem setOffFrom_of_realises (resolved : t.resolve = .ok graph) (planned : o.plan channel = .ok plan)
    (all : ∀ job, job ∈ done ↔ PlannedJob o channel job) (realises : Realises done cs) :
    SetOffFrom graph.Starts o channel cs := by
  obtain ⟨built, directed, -⟩ := orchestrate_success orchestrated
  have formed := built.wellFormed
  have distinct : o.DistinctUids := by
    have apart := (orchestrate_renders orchestrated).functions_nodup
    rw [SortedMap.values, List.map_map] at apart
    exact @OrchestrationGraph.DistinctUids.of_nodup o apart
  have functions (uid : String) : cs.contains (.function, uid) = true ↔
      ∃ name n, o.node? name = some n ∧ n.uid = uid :=
    contains_function_iff formed planned all realises
  have starts_iff {name : String} {n : OrchestrationNode} {f : ConstructRecord}
      (node : o.node? name = some n) (found : cs.find? (.function, n.uid) = some f) :
      f.triggers = [] ↔ graph.Starts name := by
    have runs := (contains_iff_runs resolved orchestrated).mp
      (SortedMap.contains_iff.mpr ⟨n, node⟩)
    rw [triggers_eq_nil_iff formed planned all realises distinct node found, runs.starts_iff]
    refine forall_congr' fun a => not_congr ?_
    rw [← edge_iff_precedes resolved orchestrated, SortedMap.contains_iff]
    refine exists_congr fun params => and_iff_left_of_imp fun edge => ?_
    rw [edge_usual orchestrated edge]
  refine ⟨functions, fun {uid f} found => ?_, fun {uid f} found => ?_⟩
  · obtain ⟨name, n, node, rfl⟩ := (functions uid).mp (SortedMap.contains_iff.mpr ⟨f, found⟩)
    rw [starts_iff node found]
    refine ⟨fun starts => ⟨name, n, node, rfl, starts⟩, ?_⟩
    rintro ⟨name', n', node', same, starts⟩
    cases distinct node' node same
    exact starts
  · obtain ⟨name, n, node, rfl⟩ := (functions uid).mp (SortedMap.contains_iff.mpr ⟨f, found⟩)
    obtain ⟨root, first, path⟩ :=
      exists_root_path resolved orchestrated (SortedMap.contains_iff.mpr ⟨n, node⟩)
    obtain ⟨present, starts⟩ := (mem_roots_iff_starts resolved orchestrated).mp first
    obtain ⟨m, start⟩ := SortedMap.contains_iff.mp present
    obtain ⟨h, deployed⟩ :=
      SortedMap.contains_iff.mp ((functions m.uid).mpr ⟨root, m, start, rfl⟩)
    exact ⟨m.uid, h, deployed, (starts_iff start deployed).mpr starts,
      setOffBy_of_path formed planned all realises distinct (edge_usual orchestrated)
        directed start node path⟩

end Derived

/-- In a graph that is derived from a template every parameter is fed by exactly one of the nodes just
before its endpoint, each of these feeds a parameter, and a resolver that reads an endpoint comes after
this endpoint alone. The nodes that nothing comes before are those that start, and every node comes
after one of them. On an empty backend on which no failure strikes and nobody cancels, functions are
therefore set off from those that start. -/
theorem derived_supplies (t : Template) (graph : ResolutionGraph) (config : CompilerConfig)
    (files : FileStore) (o : OrchestrationGraph) (resolved : t.resolve = .ok graph)
    (orchestrated : (orchestrate config graph files).1 = .ok o) :
    (∀ name e, graph.endpoints.find? name = some e → e.isRelative = true →
      (∀ p ∈ e.params, ∃! n,
        n ∈ neighbours o.predecessors (Category.endpoint.qualify name) ∧ graph.Feeds n p.name) ∧
      ∀ n ∈ neighbours o.predecessors (Category.endpoint.qualify name),
        ∃ p ∈ e.params, graph.Feeds n p.name) ∧
    (∀ name r e, graph.resolvers.find? name = some r → r.endpoint? = some e →
      neighbours o.predecessors (Category.resolver.qualify name) =
        [Category.endpoint.qualify e.name]) ∧
    (∀ name, name ∈ o.roots ↔ o.contains name = true ∧ graph.Starts name) ∧
    (∀ name, o.contains name = true →
      ∃ root ∈ o.roots, ReflTransGen (fun a b => o.edges.contains (a, b) = true) root name) ∧
    ∀ (retry : RetryPolicy) (deploymentId channel : String) (w : World),
      w.registry.constructs = ∅ → w.registry.failures = [] → w.cancelled = false →
      (∀ turns outcome, .cancel ∉ turns →
        Deployment.EndsIn { retry } deploymentId channel o w turns outcome →
        SetOffFrom graph.Starts o channel outcome.2.registry.constructs) ∧
      SetOffFrom graph.Starts o channel
        (deploy { retry } deploymentId false channel o w).2.1.registry.constructs := by
  refine ⟨fun name e stored _ => ⟨fun p listed => ?_, fun n before => ?_⟩,
    fun name r e stored reads => predecessors_resolver resolved orchestrated stored reads,
    fun name => mem_roots_iff_starts resolved orchestrated,
    fun name present => exists_root_path resolved orchestrated present,
    fun retry deploymentId channel w empty unharmed running => ?_⟩
  · exact existsUnique_supplier resolved orchestrated stored listed
  · exact exists_fed resolved orchestrated stored before
  · obtain ⟨plan, planned⟩ := orchestrate_plan_succeeds resolved orchestrated channel
    have every : ∀ turns outcome, .cancel ∉ turns →
        Deployment.EndsIn { retry } deploymentId channel o w turns outcome →
        SetOffFrom graph.Starts o channel outcome.2.registry.constructs := by
      intro turns outcome uncancelled ends
      obtain ⟨-, done, all, realises⟩ := ends.calm planned running unharmed empty uncancelled
      exact setOffFrom_of_realises orchestrated resolved planned all realises
    obtain ⟨turns, uncancelled, ends⟩ := deploy_endsIn { retry } deploymentId channel o w
    have own := every turns _ uncancelled ends
    exact ⟨every, own⟩

theorem derived_supplies_listed : ∃ graph o, Template.listed.resolve = .ok graph ∧
    (orchestrate { codeRoot := "/code" } graph {}).1 = .ok o ∧
    (∃! n, n ∈ neighbours o.predecessors "endpoint:item" ∧ graph.Feeds n "id") ∧
    graph.Starts "endpoint:list" ∧
    SetOffFrom graph.Starts o "done"
      (deploy {} "first" false "done" o { registry := {} }).2.1.registry.constructs := by
  obtain ⟨graph, o, item, resolved, orchestrated, -, roots, -, stored, relative, params⟩ :=
    Template.exists_listed
  obtain ⟨suppliers, -, starting, -, deployed⟩ := derived_supplies Template.listed graph
    { codeRoot := "/code" } {} o resolved orchestrated
  obtain ⟨p, listed, named⟩ : ∃ p ∈ item.params, p.name = "id" :=
    List.mem_map.mp (params ▸ List.mem_singleton_self "id")
  have supplier := (suppliers "item" item stored relative).1 p listed
  rw [named] at supplier
  have starts := ((starting "endpoint:list").mp (by simp [roots])).2
  obtain ⟨-, set_off⟩ := deployed {} "first" "done" { registry := {} } rfl rfl rfl
  exact ⟨graph, o, resolved, orchestrated, supplier, starts, set_off⟩

end RestWiring

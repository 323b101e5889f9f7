import RestWiring.Proofs.Orchestration.Components
import RestWiring.Proofs.Orchestration.Wiring

/-!
# The partition into components

No two components share a node: what has been found from one seed is visited, and what is connected
with it is not found again from another one.
-/
namespace RestWiring.OrchestrationGraph

variable {g : OrchestrationGraph} {channel : String} {visited : SortedSet String}

/-- Whether two sets of names have none in common. -/
def Apart (names names' : SortedSet String) : Prop :=
  ∀ x, names.contains x = true → names'.contains x = false

/-- What is found from later seeds has neither been visited nor found before. -/
theorem componentsFrom_apart (formed : g.WellFormed) {seeds : List String}
    (saturated : g.Saturated visited) (inside : ∀ seed ∈ seeds, g.contains seed = true) :
    (g.componentsFrom seeds visited).Pairwise Apart ∧
      ∀ names ∈ g.componentsFrom seeds visited, Apart visited names := by
  induction seeds generalizing visited with
  | nil => simp [componentsFrom]
  | cons seed seeds ih =>
    have here := inside seed List.mem_cons_self
    have others (x : String) (member : x ∈ seeds) := inside x (List.mem_cons_of_mem _ member)
    rw [componentsFrom]
    split
    · exact ih saturated others
    · rename_i unknown
      have new : visited.contains seed = false := by simpa using unknown
      obtain ⟨finds, visits⟩ := walk_spec formed saturated here new
      obtain ⟨pairwise, unvisited⟩ := ih (saturated.visit visits) others
      refine ⟨List.pairwise_cons.mpr ⟨fun names member x found => ?_, pairwise⟩, ?_⟩
      · exact unvisited names member x ((visits x).mpr (.inr ((finds x).mp found)))
      · intro names member x seen
        rcases List.mem_cons.mp member with rfl | member
        · rw [← Bool.not_eq_true, finds]
          intro connected
          rw [saturated x seed seen (formed.connected_symm connected)] at new
          cases new
        · exact unvisited names member x ((visits x).mpr (.inl seen))

/-- Components at different places have no node in common. -/
theorem components_apart (formed : g.WellFormed) {i j : Nat} {c c' : OrchestrationGraph}
    {name : String} (first : g.components[i]? = some c) (second : g.components[j]? = some c')
    (inside : c.contains name = true) (inside' : c'.contains name = true) : i = j := by
  have nothing : g.Saturated ∅ := by rintro x y ⟨⟩
  obtain ⟨pairwise, -⟩ := componentsFrom_apart formed nothing fun seed member => mem_seeds.mp member
  rw [components, List.getElem?_map] at first second
  obtain ⟨names, found, rfl⟩ := Option.map_eq_some_iff.mp first
  obtain ⟨names', found', rfl⟩ := Option.map_eq_some_iff.mp second
  rw [contains_induced] at inside inside'
  have apart {i j : Nat} {names names' : SortedSet String}
      (first : (g.componentsFrom g.seeds ∅)[i]? = some names)
      (second : (g.componentsFrom g.seeds ∅)[j]? = some names') (less : i < j)
      (inside : names.contains name = true) : names'.contains name = false := by
    obtain ⟨bound, rfl⟩ := List.getElem?_eq_some_iff.mp first
    obtain ⟨bound', rfl⟩ := List.getElem?_eq_some_iff.mp second
    exact List.pairwise_iff_getElem.mp pairwise i j bound bound' less name inside
  rcases Nat.lt_trichotomy i j with less | same | more
  · rw [apart found found' less inside.2] at inside'
    cases inside'.2
  · exact same
  · rw [apart found' found more inside'.2] at inside
    cases inside.2

theorem getElem?_components_of_planned {index : Nat} {component : OrchestrationGraph}
    {result : Except OrchestrationError SubgraphPlan}
    (member : (index, component, result) ∈ g.planned channel) :
    g.components[index]? = some component := by
  obtain ⟨⟨part, place⟩, listed, equal⟩ := List.mem_map.mp member
  cases equal
  exact List.mk_mem_zipIdx_iff_getElem?.mp listed

/-! ## What components take from the graph -/

theorem node?_of_planned {index : Nat} {c : OrchestrationGraph}
    {r : Except OrchestrationError SubgraphPlan} (listed : (index, c, r) ∈ g.planned channel)
    {name : String} {n : OrchestrationNode} (found : c.node? name = some n) :
    g.node? name = some n := by
  obtain ⟨names, rfl⟩ := induced_of_mem_components (mem_planned listed).1
  exact (induced_node?_iff.mp found).1

/-- A planned sink is bound by a function of the graph. -/
theorem exists_binding_of_planned {index : Nat} {c : OrchestrationGraph} {p : SubgraphPlan}
    {s : SinkPlan} (listed : (index, c, .ok p) ∈ g.planned channel) (inside : s ∈ p.sinks) :
    ∃ name n, g.node? name = some n ∧
      ∃ b ∈ n.deployment.sinks, s = ⟨b.kind, ⟨b.target, b.config⟩⟩ := by
  obtain ⟨edges, -, rfl⟩ := exists_edges_of_planned listed
  obtain ⟨b, member, equal⟩ := SubgraphPlan.exists_binding_of_mem_sinksOf inside
  obtain ⟨n, value, binding⟩ := List.mem_flatMap.mp member
  obtain ⟨name, found⟩ := SortedMap.mem_values.mp value
  exact ⟨name, n, node?_of_planned listed found, b, binding, equal⟩

/-! ## Nothing is lost and nothing is planned twice -/

/-- What can be placed at a node is shared out by the components when each has what lies inside. -/
theorem components_share {α : Type} {content : OrchestrationGraph → List α} {place : α → String}
    (formed : g.WellFormed) (nodup : ∀ c, (content c).Nodup)
    (placed : ∀ {names : SortedSet String} {x : α}, x ∈ content (g.induced names) →
      names.contains (place x) = true)
    (covers : ∀ x, (∃ c ∈ g.components, x ∈ content c) ↔ x ∈ content g) :
    (g.components.flatMap content).Perm (content g) := by
  have nothing : g.Saturated ∅ := by rintro x y ⟨⟩
  obtain ⟨pairwise, -⟩ := componentsFrom_apart formed nothing fun seed member => mem_seeds.mp member
  refine (List.perm_ext_iff_of_nodup ?_ (nodup g)).mpr fun x => List.mem_flatMap.trans (covers x)
  refine List.nodup_flatMap.mpr ⟨fun c _ => nodup c, ?_⟩
  rw [components, List.pairwise_map]
  refine pairwise.imp fun {names names'} apart x listed listed' => ?_
  have second := placed listed'
  rw [apart _ (placed listed)] at second
  cases second

/-- The components share out the nodes of a graph. -/
theorem components_entries_perm (formed : g.WellFormed) :
    (g.components.flatMap (·.nodes.entries)).Perm g.nodes.entries := by
  refine @components_share g _ _ Prod.fst formed (fun c => c.nodes.entries_nodup)
    (fun {names x} listed => (induced_node?_iff.mp (SortedMap.mem_entries.mp listed)).2) ?_
  rintro ⟨name, n⟩
  simp only [SortedMap.mem_entries]
  exact exists_component_node?_iff formed

/-- The components share out the edges of a graph. -/
theorem components_edges_perm (formed : g.WellFormed) :
    (g.components.flatMap (·.edges.entries)).Perm g.edges.entries := by
  refine @components_share g _ _ (fun e => e.1.1) formed (fun c => c.edges.entries_nodup)
    (fun {names x} listed => (induced_edge_iff.mp (SortedMap.mem_entries.mp listed)).2.1) ?_
  rintro ⟨e, params⟩
  simp only [SortedMap.mem_entries]
  constructor
  · rintro ⟨c, member, found⟩
    obtain ⟨names, rfl⟩ := induced_of_mem_components member
    exact (induced_edge_iff.mp found).1
  · exact exists_component_of_edge formed

section Planned

variable {plan : DeploymentPlan} (planned : g.plan channel = .ok plan)
include planned

/-- What all plans list of their components is what the components have. -/
theorem flatMap_subgraphs {α : Type} {f : OrchestrationGraph → List α} {h : SubgraphPlan → List α}
    (same : ∀ component index edges, h (.ofEdges index component channel edges) = f component) :
    plan.subgraphs.flatMap h = g.components.flatMap f := by
  have built : (g.planned channel).map (fun p => f p.2.1) = plan.subgraphs.map h :=
    map_built planned fun component p success => by
      obtain ⟨edges, -, -, equal⟩ := SubgraphPlan.build_success_iff.mp success
      rw [equal]
      exact (same component _ edges).symm
  rw [List.flatMap, ← built, List.flatMap, OrchestrationGraph.planned, List.map_map]
  refine congrArg List.flatten ?_
  have components : g.components = g.components.zipIdx.map (·.1) := by simp
  conv_rhs => rw [components, List.map_map]
  rfl

/-- Every node is planned, once. -/
theorem plan_nodes_perm (formed : g.WellFormed) :
    (plan.subgraphs.flatMap (·.nodes)).Perm g.names := by
  rw [flatMap_subgraphs planned (f := names) fun _ _ _ => rfl, names, SortedMap.keys]
  have names := (components_entries_perm formed).map (·.1)
  rwa [List.map_flatMap] at names

/-- Every function is planned, once. -/
theorem plan_functions_perm (formed : g.WellFormed) :
    (plan.subgraphs.flatMap (·.functions)).Perm (g.nodes.values.map (·.uid)) := by
  rw [flatMap_subgraphs planned (f := fun c => c.nodes.values.map (·.uid)) fun _ _ _ => rfl]
  have uids := (components_entries_perm formed).map (·.2.uid)
  rw [List.map_flatMap] at uids
  simpa only [SortedMap.values, List.map_map, Function.comp_def] using uids

end Planned

end RestWiring.OrchestrationGraph

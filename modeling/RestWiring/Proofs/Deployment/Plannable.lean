import RestWiring.Proofs.Deployment.DryRun
import RestWiring.Proofs.Orchestration.Derive

/-!
# Derived graphs can be planned

The declarations of a template that resolves do not refer to one another in a cycle, so the graph
that is derived from them has no loop of edges. Each of its components can therefore be planned.
-/
namespace RestWiring

open Relation

/-- A template that resolves has no cycle of references. -/
theorem Template.resolve_acyclic {t : Template} {g : ResolutionGraph} (success : t.resolve = .ok g)
    (r : Ref) :
    ¬ TransGen t.config.Refers r r := by
  obtain ⟨declared, classified, -, progress⟩ := resolve_progress success
  intro cycle
  rw [← Declarations.refersIn_eq classified] at cycle
  cases progress.cyclic (.of_cycle cycle)

/-- Every part of a derived graph can be planned. -/
theorem orchestrate_build_succeeds {t : Template} {graph : ResolutionGraph}
    {config : CompilerConfig}
    {files : FileStore} {g : OrchestrationGraph} (resolved : t.resolve = .ok graph)
    (orchestrated : (orchestrate config graph files).1 = .ok g) (names : SortedSet String)
    (index : Nat)
    (channel : String) : ∃ p, SubgraphPlan.build index (g.induced names) channel = .ok p := by
  obtain ⟨built, directed, found⟩ := orchestrate_success orchestrated
  have edge {e : String × String} {params : EdgeParams}
      (inside : (g.induced names).edges.find? e = some params) :
      e ∈ dependencies graph ∧ params = {} := by
    have stored := (OrchestrationGraph.induced_edge_iff.mp inside).1
    rw [found] at stored
    split at stored
    · rename_i member
      exact ⟨member, (Option.some.inj stored).symm⟩
    · cases stored
  refine SubgraphPlan.build_succeeds (fun e => (built.wellFormed.induced names).ends) ?_ ?_
    index channel
  · intro e params inside _
    obtain ⟨-, rfl⟩ := edge inside
    exact ⟨OrchestrationGraph.induced_directed.trans directed, List.cons_ne_nil _ _⟩
  · intro name loop
    have steps : (g.induced names).Triggers ≤ fun a b => (a, b) ∈ dependencies graph := by
      rintro a b ⟨params, inside, -⟩
      exact (edge inside).1
    exact dependencies_acyclic (Template.resolve_resolves resolved)
      (Template.resolve_acyclic resolved)
      (TransGen.mono steps _ _ loop)

theorem orchestrate_plan_succeeds {t : Template} {graph : ResolutionGraph} {config : CompilerConfig}
    {files : FileStore} {g : OrchestrationGraph} (resolved : t.resolve = .ok graph)
    (orchestrated : (orchestrate config graph files).1 = .ok g) (channel : String) :
    ∃ plan, g.plan channel = .ok plan := by
  refine OrchestrationGraph.plan_succeeds ?_
  rintro ⟨index, component, result⟩ member
  obtain ⟨listed, rfl⟩ := OrchestrationGraph.mem_planned member
  obtain ⟨names, rfl⟩ := OrchestrationGraph.induced_of_mem_components listed
  exact orchestrate_build_succeeds resolved orchestrated names index channel

/-- A graph that is derived from a template can be planned, and a dry run reports each of its
components as planned. -/
theorem orchestrate_plannable (t : Template) (graph : ResolutionGraph) (config : CompilerConfig)
    (files : FileStore)
    (g : OrchestrationGraph) (channel : String) (resolved : t.resolve = .ok graph)
    (orchestrated : (orchestrate config graph files).1 = .ok g) :
    ∃ plan, g.plan channel = .ok plan ∧
      (∀ index component result, (index, component, result) ∈ g.planned channel →
        ∃ p, result = .ok p) ∧
      ∀ settings deploymentId w,
        (deploy settings deploymentId true channel g w).1.subgraphs =
          plan.subgraphs.map fun s => ⟨s.index, some s, .planned⟩ := by
  have each : ∀ index component result, (index, component, result) ∈ g.planned channel →
      ∃ p, result = .ok p := by
    intro index component result member
    obtain ⟨listed, rfl⟩ := OrchestrationGraph.mem_planned member
    obtain ⟨names, rfl⟩ := OrchestrationGraph.induced_of_mem_components listed
    exact orchestrate_build_succeeds resolved orchestrated names index channel
  obtain ⟨plan, planned⟩ :=
    OrchestrationGraph.plan_succeeds fun p member => each p.1 p.2.1 p.2.2 member
  exact ⟨plan, planned, each, fun settings deploymentId w => deploy_dryRun_planned planned w⟩

/-- An endpoint whose parameter is supplied from another endpoint. -/
def Template.supplied : Template where
  version := "1"
  kind := "api"
  config :=
    { endpoints :=
        (SortedMap.insert ∅ "site" { kind := "baseurl", url := some "http://site" }).insert "item"
          { kind := "relativeurl", base := some "site", relative := some "item",
            params := [.name "id"] }
      params := SortedMap.insert ∅ "id" { resolver := "ids" }
      resolvers :=
        SortedMap.insert ∅ "ids" { kind := "EndpointResolver", endpoint := some "site" } }

theorem orchestrate_plannable_supplied :
    ∃ graph g plan, Template.supplied.resolve = .ok graph ∧
      (orchestrate { codeRoot := "/code" } graph {}).1 = .ok g ∧ g.plan "done" = .ok plan := by
  have succeeds : ∃ graph, Template.supplied.resolveWithPasses = .ok (graph, 3) ∧
      (orchestrate { codeRoot := "/code" } graph {}).1.isOk = true := by
    change ∃ graph, settle _ {} 0 = .ok (graph, 3) ∧ _
    unfold settle
    change ∃ graph, settle [_, _]
      { endpoints := SortedMap.insert ∅ _ _, resolvers := SortedMap.insert ∅ _ _ } 1 =
        .ok (graph, 3) ∧ _
    unfold settle
    change ∃ graph, settle [_]
      { endpoints := SortedMap.insert ∅ _ _, params := SortedMap.insert ∅ _ _,
        resolvers := SortedMap.insert ∅ _ _ } 2 = .ok (graph, 3) ∧ _
    unfold settle
    change ∃ graph, settle []
      { endpoints := SortedMap.insert (SortedMap.insert ∅ _ _) _ _,
        params := SortedMap.insert ∅ _ _,
        resolvers := SortedMap.insert ∅ _ _ } 3 = .ok (graph, 3) ∧ _
    unfold settle
    refine ⟨_, rfl, ?_⟩
    decide +kernel
  obtain ⟨graph, resolved, compiles⟩ := succeeds
  have success : Template.supplied.resolve = .ok graph :=
    Template.resolve_success_iff.mpr ⟨3, resolved⟩
  cases orchestrated : (orchestrate { codeRoot := "/code" } graph {}).1 with
  | error e =>
    rw [orchestrated] at compiles
    cases compiles
  | ok g =>
    obtain ⟨plan, planned, -, -⟩ :=
      orchestrate_plannable Template.supplied graph _ {} g "done" success orchestrated
    exact ⟨graph, g, plan, success, orchestrated, planned⟩

end RestWiring

import RestWiring.Proofs.Deployment.Parts

/-!
# Functions that set themselves off

Plans are searched for loops by the names of nodes, but functions are wired under their identities.
No chain of triggering edges leads from a node back to itself. A chain of subscriptions may lead from
an identity back to itself, but only through an identity that two nodes have in common: what the
function of one of them reports also sets off what the other one was to set off.
-/
namespace RestWiring

open Relation

variable {g c : OrchestrationGraph} {channel : String} {plan : DeploymentPlan}
  {source target uid : String}

/-- Whether a plan subscribes a function to what another one reports. -/
def DeploymentPlan.SetsOff (plan : DeploymentPlan) (source target : String) : Prop :=
  ∃ p ∈ plan.subgraphs, ∃ trigger, .subscribe target trigger ∈ p.steps ∧
    trigger.args.find? SubgraphPlan.sourceAttribute = some source

/-- Whether two nodes have functions of this identity. -/
def OrchestrationGraph.Shared (g : OrchestrationGraph) (uid : String) : Prop :=
  ∃ a b n m, a ≠ b ∧ g.node? a = some n ∧ g.node? b = some m ∧ n.uid = uid ∧ m.uid = uid

/-! ## Loops of edges -/

namespace OrchestrationGraph

variable {start stop : String}

/-- A chain of triggering edges stays in the component that it begins in. -/
theorem triggers_inside (formed : g.WellFormed) (member : c ∈ g.components)
    (inside : c.contains start = true) (path : TransGen g.Triggers start stop) :
    c.contains stop = true ∧ TransGen c.Triggers start stop := by
  -- Every edge belongs to some component, and no two components have a node in common.
  have edge_inside {a b : String} (inside : c.contains a = true) (edge : g.Triggers a b) :
      c.contains b = true ∧ c.Triggers a b := by
    obtain ⟨params, found, triggers⟩ := edge
    obtain ⟨c', member', found'⟩ := exists_component_of_edge formed found
    obtain ⟨i, first⟩ := List.getElem?_of_mem member
    obtain ⟨j, second⟩ := List.getElem?_of_mem member'
    obtain ⟨names, rfl⟩ := induced_of_mem_components member'
    obtain ⟨start_inside, stop_inside⟩ :=
      (formed.induced names).ends (SortedMap.contains_iff.mpr ⟨params, found'⟩)
    cases components_apart formed first second inside start_inside
    cases first.symm.trans second
    exact ⟨stop_inside, params, found', triggers⟩
  induction path with
  | single edge =>
    obtain ⟨inside, edge⟩ := edge_inside inside edge
    exact ⟨inside, .single edge⟩
  | tail _ edge ih =>
    obtain ⟨between, path⟩ := ih
    obtain ⟨inside, edge⟩ := edge_inside between edge
    exact ⟨inside, path.tail edge⟩

/-- The triggering edges of a graph that is planned form no loop. -/
theorem plan_acyclic (formed : g.WellFormed) (planned : g.plan channel = .ok plan) (name : String) :
    ¬ TransGen g.Triggers name name := by
  intro loop
  obtain ⟨next, ⟨params, found, -⟩, -⟩ := TransGen.head'_iff.mp loop
  obtain ⟨n, here⟩ :=
    SortedMap.contains_iff.mp (formed.ends (SortedMap.contains_iff.mpr ⟨params, found⟩)).1
  obtain ⟨c, member, inside⟩ := exists_component_of_node formed here
  obtain ⟨edges, index, listed, -⟩ := exists_plannedWith planned member
  have parted : c.WellFormed := by
    obtain ⟨names, rfl⟩ := induced_of_mem_components member
    exact formed.induced names
  exact SubgraphPlan.build_acyclic parted (mem_planned listed).2.symm name
    (triggers_inside formed member (SortedMap.contains_iff.mpr ⟨n, inside⟩) loop).2

end OrchestrationGraph

/-! ## Loops of subscriptions -/

section Planned

variable (formed : g.WellFormed) (planned : g.plan channel = .ok plan)
include formed planned

/-- One identity sets off another when an edge leads between nodes that have them. -/
theorem setsOff_iff :
    plan.SetsOff source target ↔
      ∃ a b n m, g.Triggers a b ∧ g.node? a = some n ∧ g.node? b = some m ∧ n.uid = source ∧
        m.uid = target := by
  have subscribed : plan.SetsOff source target ↔ ∃ trigger,
      PlannedJob g channel (.step (.subscribe target trigger)) ∧
        trigger.args.find? SubgraphPlan.sourceAttribute = some source := by
    constructor
    · rintro ⟨p, member, trigger, listed, told⟩
      obtain ⟨index, component, part⟩ := (OrchestrationGraph.mem_subgraphs planned).mp member
      exact ⟨trigger, ⟨index, component, p, part, mem_stages.mpr (.inr (.inr ⟨_, listed, rfl⟩))⟩, told⟩
    · rintro ⟨trigger, ⟨index, component, p, part, job⟩, told⟩
      obtain ⟨_, -, ⟨⟩⟩ | ⟨_, -, ⟨⟩⟩ | ⟨_, listed, ⟨⟩⟩ := mem_stages.mp job
      exact ⟨p, (OrchestrationGraph.mem_subgraphs planned).mpr ⟨index, component, part⟩, trigger,
        listed, told⟩
  simp only [subscribed, plannedSubscribe_iff formed planned]
  constructor
  · rintro ⟨_, ⟨t, ⟨e, params, found, triggers, n, m, first, second, rfl⟩, rfl, rfl⟩, told⟩
    rw [SubgraphPlan.subscription_source] at told
    exact ⟨e.1, e.2, n, m, ⟨params, found, triggers⟩, first, second, Option.some.inj told, rfl⟩
  · rintro ⟨a, b, n, m, ⟨params, found, triggers⟩, first, second, rfl, rfl⟩
    exact ⟨_, ⟨_, ⟨(a, b), params, found, triggers, n, m, first, second, rfl⟩, rfl, rfl⟩,
      SubgraphPlan.subscription_source _ _⟩

/-- A chain of subscriptions follows a chain of edges as long as no identity on it is shared. -/
theorem exists_triggers_of_setsOff
    (path : TransGen plan.SetsOff source target)
    (unshared : ∀ uid, ReflTransGen plan.SetsOff source uid → ReflTransGen plan.SetsOff uid target →
      ¬ g.Shared uid) :
    ∃ a b n m, TransGen g.Triggers a b ∧ g.node? a = some n ∧ g.node? b = some m ∧ n.uid = source ∧
      m.uid = target := by
  induction path with
  | single step =>
    obtain ⟨a, b, n, m, edge, ends⟩ := (setsOff_iff formed planned).mp step
    exact ⟨a, b, n, m, .single edge, ends⟩
  | tail before step ih =>
    obtain ⟨a, b, n, m, path, first, second, start_uid, stop_uid⟩ :=
      ih fun uid ahead behind => unshared uid ahead (behind.tail step)
    obtain ⟨b', d, m', k, edge, second', third, stop_uid', last_uid⟩ :=
      (setsOff_iff formed planned).mp step
    -- The two edges meet in one node, or the identity between them would be shared.
    have same : b = b' := by
      by_contra different
      exact unshared _ before.to_reflTransGen (.single step)
        ⟨b, b', m, m', different, second, second', stop_uid, stop_uid'⟩
    exact ⟨a, d, n, k, path.tail (same ▸ edge), first, third, start_uid, last_uid⟩

end Planned

/-- What a plan wires leads no node back to itself, and an identity back to itself only through one
that two nodes share: never when all nodes have identities of their own. -/
theorem plan_feedback (g : OrchestrationGraph) (channel : String) (plan : DeploymentPlan)
    (built : g.Built) (planned : g.plan channel = .ok plan) :
    (∀ name, ¬ TransGen g.Triggers name name) ∧
      (∀ uid, TransGen plan.SetsOff uid uid →
        ∃ shared, g.Shared shared ∧ ReflTransGen plan.SetsOff uid shared ∧
          ReflTransGen plan.SetsOff shared uid) ∧
      (g.DistinctUids → ∀ uid, ¬ TransGen plan.SetsOff uid uid) := by
  have acyclic := OrchestrationGraph.plan_acyclic built.wellFormed planned
  have through {uid : String} (loop : TransGen plan.SetsOff uid uid) :
      ∃ shared, g.Shared shared ∧ ReflTransGen plan.SetsOff uid shared ∧
        ReflTransGen plan.SetsOff shared uid := by
    by_contra none
    have unshared := fun shared ahead behind same => none ⟨shared, same, ahead, behind⟩
    obtain ⟨a, b, n, m, path, first, second, start_uid, stop_uid⟩ :=
      exists_triggers_of_setsOff built.wellFormed planned loop unshared
    have same : a = b := by
      by_contra different
      exact unshared uid .refl .refl ⟨a, b, n, m, different, first, second, start_uid, stop_uid⟩
    exact acyclic a (same ▸ path)
  refine ⟨acyclic, fun uid => through, fun distinct uid loop => ?_⟩
  obtain ⟨shared, ⟨a, b, n, m, different, first, second, start_uid, stop_uid⟩, -⟩ := through loop
  exact different (distinct first second (start_uid.trans stop_uid.symm))

theorem plan_feedback_relays :
    ∃ g plan, OrchestrationGraph.relays = some g ∧ g.plan "done" = .ok plan ∧
      plan.SetsOff "collector" "indexer" ∧ ∀ uid, ¬ TransGen plan.SetsOff uid uid := by
  obtain ⟨g, plan, equal, built, distinct, -, planned⟩ := OrchestrationGraph.exists_relays
  obtain ⟨-, -, apart⟩ := plan_feedback g "done" plan built planned
  refine ⟨g, plan, equal, planned, (setsOff_iff built.wellFormed planned).mpr ?_, apart distinct⟩
  have facts : (OrchestrationGraph.relays.map fun g =>
      (g.edges.find? ("collector", "indexer"), g.node? "collector", g.node? "indexer")) =
      some (some {}, some OrchestrationGraph.collector, some OrchestrationGraph.indexer) := rfl
  rw [equal] at facts
  obtain ⟨edge, first, second⟩ := by simpa using facts
  exact ⟨"collector", "indexer", _, _, ⟨_, edge, rfl⟩, first, second, rfl, rfl⟩

namespace OrchestrationGraph

/-- A second node for the function of the indexer. -/
def deputy : OrchestrationNode := { indexer with name := "deputy" }

/-- A function that sets off itself, under another name. -/
def echo : Option OrchestrationGraph := do
  let g ← (empty true).insert? indexer
  let g ← g.insert? deputy
  (g.addEdge "indexer" "deputy" {}).toOption

end OrchestrationGraph

/-- A graph that is planned although what it wires goes on forever: its nodes share an identity. -/
theorem echo_sets_itself_off :
    ∃ g plan, OrchestrationGraph.echo = some g ∧ g.Built ∧ g.plan "done" = .ok plan ∧
      TransGen plan.SetsOff "indexer" "indexer" := by
  have steps : ∃ g₁ g₂ g,
      (OrchestrationGraph.empty true).insert? OrchestrationGraph.indexer = some g₁ ∧
      g₁.insert? OrchestrationGraph.deputy = some g₂ ∧ g₂.addEdge "indexer" "deputy" {} = .ok g ∧
      OrchestrationGraph.echo = some g ∧ (g.plan "done").isOk = true ∧
      g.edges.find? ("indexer", "deputy") = some {} ∧ g.node? "indexer" = some OrchestrationGraph.indexer ∧
      g.node? "deputy" = some OrchestrationGraph.deputy := by
    refine ⟨_, _, _, rfl, rfl, rfl, rfl, ?_, rfl, rfl, rfl⟩
    decide +kernel
  obtain ⟨g₁, g₂, g, first, second, wired, equal, plannable, edge, start, stop⟩ := steps
  have built : g.Built := .addEdge (.insert (.insert (.empty true) first) second) wired
  cases planned : g.plan "done" with
  | error e =>
    rw [planned] at plannable
    cases plannable
  | ok plan =>
    exact ⟨g, plan, equal, built, planned, .single ((setsOff_iff built.wellFormed planned).mpr
      ⟨"indexer", "deputy", _, _, ⟨_, edge, rfl⟩, start, stop, rfl, rfl⟩)⟩

end RestWiring

import RestWiring.Proofs.Deployment.Schedules
import RestWiring.Proofs.Orchestration.Components

/-!
# Stacks that realise graphs

What the plans of all components wire together is what the edges of the graph say: no edge is lost
between components and none is added. A backend on which the planned jobs have been done therefore
realises the graph.
-/
namespace RestWiring

open SubgraphPlan (Triggering)

variable {g : OrchestrationGraph} {channel uid : String} {plan : DeploymentPlan} {job : Job}
  {o : Outcome} {t : Triggering}

namespace OrchestrationGraph

/-- Whether an edge that triggers leads between functions of these identities on these outcomes. -/
def Wired (g : OrchestrationGraph) (t : Triggering) : Prop :=
  ∃ e params, g.edges.find? e = some params ∧ params.triggers = true ∧
    SubgraphPlan.Wires g (e, params) t

theorem exists_wired_iff (formed : g.WellFormed) :
    (∃ t, g.Wired t) ↔ ∃ e params, g.edges.find? e = some params ∧ params.triggers = true := by
  constructor
  · rintro ⟨t, e, params, found, triggers, -⟩
    exact ⟨e, params, found, triggers⟩
  · rintro ⟨e, params, found, triggers⟩
    obtain ⟨first, second⟩ := formed.ends (SortedMap.contains_iff.mpr ⟨params, found⟩)
    obtain ⟨f, start_found⟩ := SortedMap.contains_iff.mp first
    obtain ⟨h, target_found⟩ := SortedMap.contains_iff.mp second
    exact ⟨_, e, params, found, triggers, f, h, start_found, target_found, rfl⟩

/-- Components wire what the graph wires, no more and no less. -/
theorem exists_component_wired_iff (formed : g.WellFormed) :
    (∃ component ∈ g.components, component.Wired t) ↔ g.Wired t := by
  constructor
  · rintro ⟨component, member, e, params, found, triggers, f, h, start_found, target_found, rfl⟩
    obtain ⟨names, rfl⟩ := induced_of_mem_components member
    exact ⟨e, params, (induced_edge_iff.mp found).1, triggers, f, h,
      (induced_node?_iff.mp start_found).1,
      (induced_node?_iff.mp target_found).1, rfl⟩
  · rintro ⟨e, params, found, triggers, f, h, start_found, target_found, rfl⟩
    obtain ⟨component, member, inside⟩ := exists_component_of_edge formed found
    obtain ⟨names, rfl⟩ := induced_of_mem_components member
    obtain ⟨-, first, second⟩ := induced_edge_iff.mp inside
    exact ⟨_, member, e, params, inside, triggers, f, h, induced_node?_iff.mpr ⟨start_found, first⟩,
      induced_node?_iff.mpr ⟨target_found, second⟩, rfl⟩

/-- Whether no two nodes have functions of the same identity. -/
def DistinctUids (g : OrchestrationGraph) : Prop :=
  ∀ {a b : String} {n m : OrchestrationNode}, g.node? a = some n → g.node? b = some m →
    n.uid = m.uid → a = b

end OrchestrationGraph

/-! ## Planned jobs -/

/-- Whether a component is planned with these triggering edges. -/
def PlannedWith (g : OrchestrationGraph) (channel : String) (component : OrchestrationGraph)
    (edges : List Triggering) : Prop :=
  ∃ index,
    (index, component, .ok (SubgraphPlan.ofEdges index component channel edges)) ∈
      g.planned channel ∧
    SubgraphPlan.triggering index component component.edges.entries = .ok edges

theorem PlannedWith.mem_iff {component : OrchestrationGraph} {edges : List Triggering}
    (with_edges : PlannedWith g channel component edges) : t ∈ edges ↔ component.Wired t := by
  obtain ⟨index, -, wired⟩ := with_edges
  exact SubgraphPlan.mem_triggering wired

theorem PlannedWith.mem_components {component : OrchestrationGraph} {edges : List Triggering}
    (with_edges : PlannedWith g channel component edges) : component ∈ g.components := by
  obtain ⟨index, listed, -⟩ := with_edges
  exact (OrchestrationGraph.mem_planned listed).1

theorem exists_plannedWith (planned : g.plan channel = .ok plan) {component : OrchestrationGraph}
    (member : component ∈ g.components) : ∃ edges, PlannedWith g channel component edges := by
  obtain ⟨-, related⟩ := OrchestrationGraph.plan_success_iff.mp planned
  obtain ⟨index, inside, rfl⟩ := List.getElem_of_mem member
  have listed : (index, g.components[index], SubgraphPlan.build index g.components[index] channel) ∈
      g.planned channel :=
    List.mem_map.mpr ⟨(g.components[index], index), List.mk_mem_zipIdx_iff_getElem?.mpr (by simp),
      rfl⟩
  obtain ⟨p, -, success⟩ := exists_of_mem_left related listed
  obtain ⟨edges, wired, -, rfl⟩ := SubgraphPlan.build_success_iff.mp success
  rw [show SubgraphPlan.build index g.components[index] channel = _ from success] at listed
  exact ⟨edges, index, listed, wired⟩

theorem plannedJob_iff :
    PlannedJob g channel job ↔ ∃ component edges, PlannedWith g channel component edges ∧
      ((∃ s ∈ SubgraphPlan.sinksOf (component.nodes.values.flatMap (·.deployment.sinks)) ∅,
        job = .sink s) ∨
        (∃ n ∈ component.nodes.values, job = .function n.deployment) ∨
        ∃ s ∈ SubgraphPlan.wiring channel edges, job = .step s) := by
  constructor
  · rintro ⟨index, component, p, listed, member⟩
    obtain ⟨-, built⟩ := OrchestrationGraph.mem_planned listed
    obtain ⟨edges, wired, -, rfl⟩ := SubgraphPlan.build_success_iff.mp built.symm
    exact ⟨component, edges, ⟨index, listed, wired⟩, mem_stages.mp member⟩
  · rintro ⟨component, edges, ⟨index, listed, -⟩, member⟩
    exact ⟨index, component, _, listed, mem_stages.mpr member⟩

/-- A step is planned when some component plans it for its triggering edges. -/
theorem plannedStep_iff {s : WiringStep} :
    PlannedJob g channel (.step s) ↔
      ∃ component edges, PlannedWith g channel component edges ∧
        s ∈ SubgraphPlan.wiring channel edges := by
  rw [plannedJob_iff]
  constructor
  · rintro ⟨component, edges, with_edges, ⟨_, _, ⟨⟩⟩ | ⟨_, _, ⟨⟩⟩ | ⟨_, member, ⟨⟩⟩⟩
    exact ⟨component, edges, with_edges, member⟩
  · rintro ⟨component, edges, with_edges, member⟩
    exact ⟨component, edges, with_edges, .inr (.inr ⟨s, member, rfl⟩)⟩

section Planned

variable (formed : g.WellFormed) (planned : g.plan channel = .ok plan)
include formed planned

theorem plannedFunction_iff {f : FunctionDeployment} :
    PlannedJob g channel (.function f) ↔ ∃ name n, g.node? name = some n ∧ n.deployment = f := by
  rw [plannedJob_iff]
  constructor
  · rintro ⟨component, edges, with_edges, ⟨_, _, ⟨⟩⟩ | ⟨n, member, ⟨⟩⟩ | ⟨_, _, ⟨⟩⟩⟩
    obtain ⟨name, found⟩ := SortedMap.mem_values.mp member
    exact ⟨name, n, (OrchestrationGraph.exists_component_node?_iff formed).mp
      ⟨component, with_edges.mem_components, found⟩, rfl⟩
  · rintro ⟨name, n, found, rfl⟩
    obtain ⟨component, member, inside⟩ :=
      (OrchestrationGraph.exists_component_node?_iff formed).mpr found
    obtain ⟨edges, with_edges⟩ := exists_plannedWith planned member
    exact ⟨component, edges, with_edges,
      .inr (.inl ⟨n, SortedMap.mem_values.mpr ⟨name, inside⟩, rfl⟩)⟩

theorem exists_plannedSink_iff {key : SinkKind × String} :
    (∃ s, PlannedJob g channel (.sink s) ∧ (s.kind, s.spec.name) = key) ↔
      ∃ name n, g.node? name = some n ∧ ∃ b ∈ n.deployment.sinks, (b.kind, b.target) = key := by
  constructor
  · rintro ⟨s, job, keyed⟩
    obtain ⟨component, edges, with_edges, ⟨_, member, ⟨⟩⟩ | ⟨_, _, ⟨⟩⟩ | ⟨_, _, ⟨⟩⟩⟩ :=
      plannedJob_iff.mp job
    obtain ⟨-, b, bound, keyed⟩ := SubgraphPlan.mem_sinksOf.mp ⟨s, member, keyed⟩
    obtain ⟨n, listed, inside⟩ := List.mem_flatMap.mp bound
    obtain ⟨name, found⟩ := SortedMap.mem_values.mp listed
    exact ⟨name, n, (OrchestrationGraph.exists_component_node?_iff formed).mp
      ⟨component, with_edges.mem_components, found⟩, b, inside, keyed⟩
  · rintro ⟨name, n, found, b, inside, keyed⟩
    obtain ⟨component, member, found'⟩ :=
      (OrchestrationGraph.exists_component_node?_iff formed).mpr found
    obtain ⟨edges, with_edges⟩ := exists_plannedWith planned member
    have bound : b ∈ component.nodes.values.flatMap (·.deployment.sinks) :=
      List.mem_flatMap.mpr ⟨n, SortedMap.mem_values.mpr ⟨name, found'⟩, inside⟩
    obtain ⟨s, listed, keyed'⟩ :=
      SubgraphPlan.mem_sinksOf.mpr ⟨SortedMap.contains_empty key, b, bound, keyed⟩
    exact ⟨s, plannedJob_iff.mpr ⟨component, edges, with_edges, .inl ⟨s, listed, rfl⟩⟩, keyed'⟩

/-- Every triggering edge of the graph is among those of a component, and the other way round. -/
theorem exists_plannedWith_mem_iff :
    (∃ component edges, PlannedWith g channel component edges ∧ t ∈ edges) ↔ g.Wired t := by
  rw [← OrchestrationGraph.exists_component_wired_iff formed]
  constructor
  · rintro ⟨component, edges, with_edges, member⟩
    exact ⟨component, with_edges.mem_components, with_edges.mem_iff.mp member⟩
  · rintro ⟨component, member, wired⟩
    obtain ⟨edges, with_edges⟩ := exists_plannedWith planned member
    exact ⟨component, edges, with_edges, with_edges.mem_iff.mpr wired⟩

theorem plannedChannel_iff {name : String} :
    PlannedJob g channel (.step (.ensureChannel name)) ↔ name = channel ∧ ∃ t, g.Wired t := by
  simp only [plannedStep_iff, SubgraphPlan.mem_wiring, ← exists_plannedWith_mem_iff formed planned]
  constructor
  · rintro ⟨component, edges, with_edges, nonempty, step⟩
    rcases step with equal | ⟨start, on, found, equal | equal⟩ | ⟨t, member, equal⟩ <;> cases equal
    obtain ⟨t, member⟩ := List.exists_mem_of_ne_nil edges nonempty
    exact ⟨rfl, t, component, edges, with_edges, member⟩
  · rintro ⟨rfl, t, component, edges, with_edges, member⟩
    exact ⟨component, edges, with_edges, List.ne_nil_of_mem member, .inl rfl⟩

theorem plannedGrant_iff {name : String} :
    PlannedJob g channel (.step (.grantPublish name uid)) ↔
      name = channel ∧ ∃ t, g.Wired t ∧ t.start = uid := by
  simp only [plannedStep_iff, SubgraphPlan.mem_wiring, ← exists_plannedWith_mem_iff formed planned]
  constructor
  · rintro ⟨component, edges, with_edges, -, step⟩
    rcases step with equal | ⟨start, on, found, equal | equal⟩ | ⟨t, member, equal⟩ <;> cases equal
    obtain ⟨t, member, started⟩ :=
      SubgraphPlan.published_contains.mp (SortedMap.contains_iff.mpr ⟨on, found⟩)
    exact ⟨rfl, t, ⟨component, edges, with_edges, member⟩, started⟩
  · rintro ⟨rfl, t, ⟨component, edges, with_edges, member⟩, rfl⟩
    obtain ⟨on, found⟩ :=
      SortedMap.contains_iff.mp (SubgraphPlan.published_contains.mpr ⟨t, member, rfl⟩)
    exact ⟨component, edges, with_edges, List.ne_nil_of_mem member,
      .inr (.inl ⟨t.start, on, found, .inl rfl⟩)⟩

theorem exists_plannedNotify_iff {name : String} :
    (∃ params, PlannedJob g channel (.step (.notify uid name params)) ∧ params.identity = uid ∧
      o ∈ params.on) ↔
      name = channel ∧ ∃ t, g.Wired t ∧ t.start = uid ∧ o ∈ t.on := by
  simp only [plannedStep_iff, SubgraphPlan.mem_wiring, ← exists_plannedWith_mem_iff formed planned]
  constructor
  · rintro ⟨params, ⟨component, edges, with_edges, -, step⟩, -, inside⟩
    rcases step with equal | ⟨start, on, found, equal | equal⟩ | ⟨t, member, equal⟩ <;> cases equal
    obtain ⟨t, member, started, triggers⟩ :=
      SubgraphPlan.published_lists.mp ⟨on, found, SortedSet.mem_members.mp inside⟩
    exact ⟨rfl, t, ⟨component, edges, with_edges, member⟩, started, triggers⟩
  · rintro ⟨rfl, t, ⟨component, edges, with_edges, member⟩, rfl, triggers⟩
    obtain ⟨on, found, inside⟩ := SubgraphPlan.published_lists.mpr ⟨t, member, rfl, triggers⟩
    exact ⟨_, ⟨component, edges, with_edges, List.ne_nil_of_mem member,
      .inr (.inl ⟨t.start, on, found, .inr rfl⟩)⟩,
      rfl, SortedSet.mem_members.mpr inside⟩

theorem plannedSubscribe_iff {trigger : TriggerSpec} :
    PlannedJob g channel (.step (.subscribe uid trigger)) ↔
      ∃ t, g.Wired t ∧ t.target = uid ∧ trigger = SubgraphPlan.subscription channel t := by
  simp only [plannedStep_iff, SubgraphPlan.mem_wiring, ← exists_plannedWith_mem_iff formed planned]
  constructor
  · rintro ⟨component, edges, with_edges, -, step⟩
    rcases step with equal | ⟨start, on, found, equal | equal⟩ | ⟨t, member, equal⟩ <;> cases equal
    exact ⟨t, ⟨component, edges, with_edges, member⟩, rfl, rfl⟩
  · rintro ⟨t, ⟨component, edges, with_edges, member⟩, rfl, rfl⟩
    exact ⟨component, edges, with_edges, List.ne_nil_of_mem member, .inr (.inr ⟨t, member, rfl⟩)⟩

/-- Only the edges of directed graphs can be wired. -/
theorem directed_of_wired (wired : g.Wired t) : g.directed = true := by
  obtain ⟨component, edges, with_edges, member⟩ :=
    (exists_plannedWith_mem_iff formed planned).mpr wired
  obtain ⟨names, rfl⟩ := OrchestrationGraph.induced_of_mem_components with_edges.mem_components
  obtain ⟨e, params, found, triggers, -⟩ := with_edges.mem_iff.mp member
  obtain ⟨index, -, success⟩ := with_edges
  obtain ⟨directed, -⟩ :=
    (SubgraphPlan.triggering_success success).2 _ (SortedMap.mem_entries.mpr found) triggers
  rwa [OrchestrationGraph.induced_directed] at directed

/-- The identities at the ends of a triggering edge tell the edge. -/
theorem exists_wired_iff_edge (distinct : g.DistinctUids) {start target : String}
    {f h : OrchestrationNode} (first : g.node? start = some f) (second : g.node? target = some h) :
    (∃ t, g.Wired t ∧ t.start = f.uid ∧ t.target = h.uid ∧ o ∈ t.on) ↔
      ∃ params, g.edge? start target = some params ∧ params.triggers = true ∧ o ∈ params.on := by
  constructor
  · rintro ⟨t, ⟨⟨a, b⟩, params, found, triggers, n, m, start_found, target_found, rfl⟩,
      start_uid, target_uid, inside⟩
    cases distinct start_found first start_uid
    cases distinct target_found second target_uid
    have present : g.edges.contains (a, b) = true := SortedMap.contains_iff.mpr ⟨params, found⟩
    rw [OrchestrationGraph.edge?, formed.edgeKey_self present]
    exact ⟨params, found, triggers, inside⟩
  · rintro ⟨params, found, triggers, inside⟩
    have wired : ∃ n m,
        g.node? (g.edgeKey start target).1 = some n ∧
          g.node? (g.edgeKey start target).2 = some m := by
      rcases OrchestrationGraph.edgeKey_cases g start target with key | key <;> rw [key]
      · exact ⟨f, h, first, second⟩
      · exact ⟨h, f, second, first⟩
    obtain ⟨n, m, start_found, target_found⟩ := wired
    have directed := directed_of_wired formed planned
      ⟨_, params, found, triggers, n, m, start_found, target_found, rfl⟩
    rw [OrchestrationGraph.edge?, OrchestrationGraph.edgeKey_of_directed directed] at found
    exact ⟨_, ⟨_, params, found, triggers, f, h, first, second, rfl⟩, rfl, rfl, inside⟩

end Planned

/-! ## Realised graphs -/

/-- Whether a function may publish to a topic. -/
def Publishes (cs : Constructs) (topic uid : String) : Prop :=
  ∃ record, cs.find? (.topic, topic) = some record ∧ record.publishers.contains uid = true

/-- Whether a function reports an outcome to a topic under its own identity. -/
def Reports (cs : Constructs) (topic uid : String) (o : Outcome) : Prop :=
  ∃ record, cs.find? (.function, uid) = some record ∧
    ∃ params, (topic, params) ∈ record.notifications ∧ params.identity = uid ∧ o ∈ params.on

/-- Whether a function is set off by an outcome that is reported to a topic under some identity. -/
def Subscribes (cs : Constructs) (topic source uid : String) (o : Outcome) : Prop :=
  ∃ record, cs.find? (.function, uid) = some record ∧
    ∃ trigger ∈ record.triggers, trigger.source = .topic ∧ trigger.name = topic ∧
      trigger.args.find? SubgraphPlan.sourceAttribute = some source ∧ o ∈ trigger.on

/-- Whether constructs are what a graph asks for: its functions, their sinks, and a channel over
which one function sets off another exactly where an edge says so. -/
structure Realisation (g : OrchestrationGraph) (channel : String) (cs : Constructs) : Prop where
  wired_iff : ∀ {start target : String} {f h : OrchestrationNode}, g.node? start = some f →
    g.node? target = some h →
    ∀ o, (Publishes cs channel f.uid ∧ Reports cs channel f.uid o ∧
      Subscribes cs channel f.uid h.uid o) ↔
      ∃ params, g.edge? start target = some params ∧ params.triggers = true ∧ o ∈ params.on
  functions_iff : ∀ uid, cs.contains (.function, uid) = true ↔
    ∃ name n, g.node? name = some n ∧ n.uid = uid
  storage_iff : ∀ kind name, kind ≠ .function → kind ≠ .topic → (cs.contains (kind, name) = true ↔
    ∃ node n, g.node? node = some n ∧
      ∃ b ∈ n.deployment.sinks, (b.kind.construct, b.target) = (kind, name))
  topics_iff : ∀ name, cs.contains (.topic, name) = true ↔
    (name = channel ∧ ∃ e params, g.edges.find? e = some params ∧ params.triggers = true) ∨
      ∃ node n, g.node? node = some n ∧
        ∃ b ∈ n.deployment.sinks, (b.kind.construct, b.target) = (.topic, name)

section Realised

variable {done : List Job} {cs : Constructs} (formed : g.WellFormed)
  (planned : g.plan channel = .ok plan)
  (all : ∀ job, job ∈ done ↔ PlannedJob g channel job) (realises : Realises done cs)
include formed planned all realises

theorem publishes_iff : Publishes cs channel uid ↔ ∃ t, g.Wired t ∧ t.start = uid := by
  have granted : Job.step (.grantPublish channel uid) ∈ done ↔
      channel = channel ∧ ∃ t, g.Wired t ∧ t.start = uid :=
    (all _).trans (plannedGrant_iff formed planned)
  constructor
  · rintro ⟨record, found, publishes⟩
    exact (granted.mp ((realises.publishers_iff found uid).mp publishes)).2
  · intro wired
    have member := granted.mpr ⟨rfl, wired⟩
    have present := realises.supplied _ member (.topic, channel) (by simp [Job.needs])
    obtain ⟨record, found⟩ := SortedMap.contains_iff.mp present
    exact ⟨record, found, (realises.publishers_iff found uid).mpr member⟩

theorem reports_iff : Reports cs channel uid o ↔ ∃ t, g.Wired t ∧ t.start = uid ∧ o ∈ t.on := by
  have notified : (∃ params, PlannedJob g channel (.step (.notify uid channel params)) ∧
    params.identity = uid ∧
      o ∈ params.on) ↔ channel = channel ∧ ∃ t, g.Wired t ∧ t.start = uid ∧ o ∈ t.on :=
    exists_plannedNotify_iff formed planned
  constructor
  · rintro ⟨record, found, params, reports, identity, inside⟩
    have member := (realises.notifications_iff found channel params).mp reports
    exact (notified.mp ⟨params, (all _).mp member, identity, inside⟩).2
  · intro wired
    obtain ⟨params, job, identity, inside⟩ := notified.mpr ⟨rfl, wired⟩
    have member := (all _).mpr job
    have present := realises.supplied _ member (.function, uid) (by simp [Job.needs])
    obtain ⟨record, found⟩ := SortedMap.contains_iff.mp present
    exact ⟨record, found, params, (realises.notifications_iff found channel params).mpr member,
      identity, inside⟩

theorem subscribes_iff {source : String} :
    Subscribes cs channel source uid o ↔
      ∃ t, g.Wired t ∧ t.start = source ∧ t.target = uid ∧ o ∈ t.on := by
  constructor
  · rintro ⟨record, found, trigger, subscribes, -, -, args, inside⟩
    have member := (realises.triggers_iff found trigger).mp subscribes
    obtain ⟨t, wired, target, rfl⟩ := (plannedSubscribe_iff formed planned).mp ((all _).mp member)
    refine ⟨t, wired, ?_, target, inside⟩
    simpa [SubgraphPlan.subscription, SortedMap.ofList, SortedMap.find?_insert_self] using args
  · rintro ⟨t, wired, rfl, rfl, inside⟩
    have member := (all _).mpr ((plannedSubscribe_iff formed planned).mpr ⟨t, wired, rfl, rfl⟩)
    have present := realises.supplied _ member (.function, t.target) (by simp [Job.needs])
    obtain ⟨record, found⟩ := SortedMap.contains_iff.mp present
    refine ⟨record, found, _, (realises.triggers_iff found _).mpr member, rfl, rfl, ?_, inside⟩
    simp [SubgraphPlan.subscription, SortedMap.ofList, SortedMap.find?_insert_self]

theorem contains_function_iff :
    cs.contains (.function, uid) = true ↔ ∃ name n, g.node? name = some n ∧ n.uid = uid := by
  rw [realises.contains_iff]
  constructor
  · rintro ⟨job, member, provided⟩
    cases job with
    | sink s =>
      obtain ⟨kind, spec⟩ := s
      cases kind <;> cases provided
    | function f =>
      obtain ⟨name, n, found, rfl⟩ := (plannedFunction_iff formed planned).mp ((all _).mp member)
      exact ⟨name, n, found, (Prod.mk.inj (Option.some.inj provided)).2⟩
    | step s => cases s <;> cases provided
  · rintro ⟨name, n, found, rfl⟩
    exact ⟨_, (all _).mpr ((plannedFunction_iff formed planned).mpr ⟨name, n, found, rfl⟩), rfl⟩

/-- Constructs that are no functions are sinks, or the channel. -/
theorem contains_sink_iff {kind : ConstructKind} {name : String} (storage : kind ≠ .function) :
    cs.contains (kind, name) = true ↔ ((kind, name) = (.topic, channel) ∧ ∃ t, g.Wired t) ∨
      ∃ node n, g.node? node = some n ∧
        ∃ b ∈ n.deployment.sinks, (b.kind.construct, b.target) = (kind, name) := by
  rw [realises.contains_iff]
  constructor
  · rintro ⟨job, member, provided⟩
    cases job with
    | sink s =>
      obtain ⟨node, n, found, b, inside, keyed⟩ :=
        (exists_plannedSink_iff formed planned).mp ⟨s, (all _).mp member, rfl⟩
      obtain ⟨same, target⟩ := Prod.mk.inj keyed
      refine .inr ⟨node, n, found, b, inside, ?_⟩
      rw [same, target]
      exact Option.some.inj provided
    | function f =>
      cases provided
      exact absurd rfl storage
    | step s =>
      cases s with
      | ensureChannel c =>
        obtain ⟨rfl, wired⟩ := (plannedChannel_iff formed planned).mp ((all _).mp member)
        exact .inl ⟨(Option.some.inj provided).symm, wired⟩
      | grantPublish | notify | subscribe => cases provided
  · rintro (⟨⟨⟩, wired⟩ | ⟨node, n, found, b, inside, ⟨⟩⟩)
    · exact ⟨_, (all _).mpr ((plannedChannel_iff formed planned).mpr ⟨rfl, wired⟩), rfl⟩
    · obtain ⟨s, job, keyed⟩ :=
        (exists_plannedSink_iff formed planned).mpr ⟨node, n, found, b, inside, rfl⟩
      obtain ⟨same, target⟩ := Prod.mk.inj keyed
      refine ⟨_, (all _).mpr job, ?_⟩
      rw [Job.provides, same, target]

/-- A backend on which all planned jobs have been done realises the graph. -/
theorem realisation (distinct : g.DistinctUids) : Realisation g channel cs where
  wired_iff := by
    intro start target f h first second o
    rw [publishes_iff formed planned all realises, reports_iff formed planned all realises,
      subscribes_iff formed planned all realises,
      ← exists_wired_iff_edge formed planned distinct first second]
    constructor
    · rintro ⟨-, -, t, wired, started, targeted, inside⟩
      exact ⟨t, wired, started, targeted, inside⟩
    · rintro ⟨t, wired, started, targeted, inside⟩
      exact ⟨⟨t, wired, started⟩, ⟨t, wired, started, inside⟩, t, wired, started, targeted, inside⟩
  functions_iff uid := contains_function_iff formed planned all realises
  storage_iff := by
    intro kind name no_function no_topic
    rw [contains_sink_iff formed planned all realises no_function]
    exact or_iff_right fun channel => no_topic (Prod.mk.inj channel.1).1
  topics_iff := by
    intro name
    rw [contains_sink_iff formed planned all realises (by simp),
      OrchestrationGraph.exists_wired_iff formed, Prod.mk.injEq]
    simp

end Realised

/-- A graph that can be planned and whose functions have identities of their own is realised by
its deployment on an empty backend, whatever turns it takes while no failure strikes and nobody
cancels. -/
theorem deploy_realisation (retry : RetryPolicy) (deploymentId channel : String)
    (g : OrchestrationGraph)
    (plan : DeploymentPlan) (w : World) (built : g.Built) (distinct : g.DistinctUids)
    (planned : g.plan channel = .ok plan) (empty : w.registry.constructs = ∅)
    (unharmed : w.registry.failures = []) (running : w.cancelled = false) :
    (∀ turns outcome, .cancel ∉ turns →
      Deployment.EndsIn { retry } deploymentId channel g w turns outcome →
      outcome.1.subgraphs = plan.subgraphs.map (fun p => ⟨p.index, some p, .deployed⟩) ∧
        Realisation g channel outcome.2.registry.constructs) ∧
    (deploy { retry } deploymentId false channel g w).1.subgraphs =
        plan.subgraphs.map (fun p => ⟨p.index, some p, .deployed⟩) ∧
      Realisation g channel
        (deploy { retry } deploymentId false channel g w).2.1.registry.constructs := by
  have every : ∀ turns outcome, .cancel ∉ turns →
      Deployment.EndsIn { retry } deploymentId channel g w turns outcome →
      outcome.1.subgraphs = plan.subgraphs.map (fun p => ⟨p.index, some p, .deployed⟩) ∧
        Realisation g channel outcome.2.registry.constructs := by
    intro turns outcome uncancelled ends
    obtain ⟨reports, done, all, realises⟩ := ends.calm planned running unharmed empty uncancelled
    exact ⟨reports, realisation built.wellFormed planned all realises distinct⟩
  obtain ⟨turns, uncancelled, ends⟩ := deploy_endsIn { retry } deploymentId channel g w
  exact ⟨every, every turns _ uncancelled ends⟩

/-- A function that writes into a bucket. -/
def OrchestrationGraph.collector : OrchestrationNode where
  name := "collector"
  deployment :=
    { uid := "collector", code := "", runtime := "", requirements := [], handler := "",
      codeLocation := "", params := {}
      sinks := [{ name := "raw", kind := .bucket, target := "raw-data" }] }

def OrchestrationGraph.indexer : OrchestrationNode where
  name := "indexer"
  deployment :=
    { uid := "indexer", code := "", runtime := "", requirements := [], handler := "",
      codeLocation := "", params := {}
      sinks := [] }

/-- One function that sets off another. -/
def OrchestrationGraph.relay : Option OrchestrationGraph := do
  let g ← (empty true).insert? collector
  let g ← g.insert? indexer
  (g.addEdge "collector" "indexer" {}).toOption

theorem deploy_realisation_relay :
    ∃ g plan, OrchestrationGraph.relay = some g ∧ g.plan "done" = .ok plan ∧
      Realisation g "done"
        (deploy {} "first" false "done" g { registry := {} }).2.1.registry.constructs := by
  have steps : ∃ first second g,
      (OrchestrationGraph.empty true).insert? OrchestrationGraph.collector = some first ∧
      first.insert? OrchestrationGraph.indexer = some second ∧
      second.addEdge "collector" "indexer" {} = .ok g ∧
      OrchestrationGraph.relay = some g ∧ (g.plan "done").isOk = true ∧
      g.nodes.entries =
        [("collector", OrchestrationGraph.collector), ("indexer", OrchestrationGraph.indexer)] := by
    refine ⟨_, _, _, rfl, rfl, rfl, rfl, ?_, rfl⟩
    decide +kernel
  obtain ⟨first, second, g, inserted, inserted', added, relayed, plannable, entries⟩ := steps
  have built : g.Built := .addEdge (.insert (.insert (.empty true) inserted) inserted') added
  have distinct : g.DistinctUids := by
    intro a b n m found found' same
    have listed := SortedMap.mem_entries.mpr found
    have listed' := SortedMap.mem_entries.mpr found'
    rw [entries] at listed listed'
    simp only [List.mem_cons, List.not_mem_nil, or_false, Prod.mk.injEq] at listed listed'
    rcases listed with ⟨rfl, rfl⟩ | ⟨rfl, rfl⟩ <;> rcases listed' with ⟨rfl, rfl⟩ | ⟨rfl, rfl⟩
    · rfl
    · exact absurd same (by decide)
    · exact absurd same (by decide)
    · rfl
  cases planned : g.plan "done" with
  | error e =>
    rw [planned] at plannable
    cases plannable
  | ok plan =>
    obtain ⟨-, -, realised⟩ :=
      deploy_realisation {} "first" "done" g plan { registry := {} } built distinct planned
        rfl rfl rfl
    exact ⟨g, plan, relayed, planned, realised⟩

end RestWiring

import RestWiring.Proofs.Deployment.Coordination
import RestWiring.Proofs.Deployment.Realisation
import RestWiring.Proofs.Orchestration.Partition

/-!
# What components are given to do

The components of a graph whose functions have identities of their own do not disturb one another:
the jobs on a function are planned by the one component that has the function's node, and constructs
that several components create are created alike.
-/
namespace RestWiring

variable {g c c' : OrchestrationGraph} {p : SubgraphPlan} {channel : String} {index : Nat}
  {job : Job} {key : ConstructKey}

/-- Whether different components that write into one sink agree on how it is configured. -/
def OrchestrationGraph.SharedSinksAgree (g : OrchestrationGraph) (channel : String) : Prop :=
  ∀ (i j : Nat) (c c' : OrchestrationGraph) (p q : SubgraphPlan),
    (i, c, .ok p) ∈ g.planned channel → (j, c', .ok q) ∈ g.planned channel → i ≠ j →
    ∀ s ∈ p.sinks, ∀ t ∈ q.sinks, s.kind = t.kind → s.spec.name = t.spec.name →
      s.spec.config = t.spec.config

/-! ## Jobs on functions -/

/-- A planned job that touches a function has a node of its component to do with. -/
theorem exists_node_of_function_job (success : SubgraphPlan.build index c channel = .ok p)
    (member : job ∈ (stages c p).flatten) (function : job.key.1 = .function) :
    ∃ name n, c.node? name = some n ∧ job.key = (.function, n.uid) := by
  obtain ⟨edges, wired, -, rfl⟩ := SubgraphPlan.build_success_iff.mp success
  rcases mem_stages.mp member with ⟨s, -, rfl⟩ | ⟨n, listed, rfl⟩ | ⟨s, listed, rfl⟩
  · exact absurd function s.kind.construct_ne_function
  · obtain ⟨name, found⟩ := SortedMap.mem_values.mp listed
    exact ⟨name, n, found, rfl⟩
  · obtain ⟨-, rfl | ⟨start, on, found, rfl | rfl⟩ | ⟨e, inside, rfl⟩⟩ :=
      SubgraphPlan.mem_wiring.mp listed
    · cases function
    · cases function
    · obtain ⟨e, inside, rfl⟩ :=
        SubgraphPlan.published_contains.mp (SortedMap.contains_iff.mpr ⟨on, found⟩)
      obtain ⟨_, _, -, -, f, h, start_found, -, rfl⟩ :=
        (SubgraphPlan.mem_triggering wired).mp inside
      exact ⟨_, f, start_found, rfl⟩
    · obtain ⟨_, _, -, -, f, h, -, target_found, rfl⟩ :=
        (SubgraphPlan.mem_triggering wired).mp inside
      exact ⟨_, h, target_found, rfl⟩

theorem stages_orderly (c : OrchestrationGraph) (p : SubgraphPlan) : Orderly (stages c p) := by
  intro stage member
  obtain ⟨listed, -⟩ := List.mem_filter.mp member
  rcases List.mem_append.mp listed with listed | listed
  · rcases List.mem_cons.mp listed with rfl | listed
    · refine .inr fun job inside => ?_
      obtain ⟨s, -, rfl⟩ := List.mem_map.mp inside
      exact s.kind.construct_ne_function
    · obtain ⟨n, -, rfl⟩ := List.mem_map.mp listed
      exact .inl (Nat.le_refl 1)
  · obtain ⟨s, -, rfl⟩ := List.mem_map.mp listed
    exact .inl (Nat.le_refl 1)

/-! ## Planned jobs -/

/-- Each function is deployed by the component that has its node, and by no other. -/
theorem OrchestrationGraph.coordinated (formed : g.WellFormed) (distinct : g.DistinctUids)
    (channel : String) : Coordinated (g.parts channel) where
  orderly := by
    intro stages listed
    obtain ⟨index, found⟩ := List.getElem?_of_mem listed
    rcases getElem?_parts found with rfl | ⟨c, p, -, rfl⟩
    · rintro stage ⟨⟩
    · exact stages_orderly c p
  owned := by
    intro i j s t found found' job inside job' inside' same function
    rcases getElem?_parts found with rfl | ⟨c, p, planned, rfl⟩
    · cases inside
    rcases getElem?_parts found' with rfl | ⟨c', p', planned', rfl⟩
    · cases inside'
    obtain ⟨name, n, here, key⟩ :=
      exists_node_of_function_job (mem_planned planned).2.symm inside function
    obtain ⟨name', n', here', key'⟩ :=
      exists_node_of_function_job (mem_planned planned').2.symm inside' (same ▸ function)
    have uids : n.uid = n'.uid := by
      rw [key, key'] at same
      exact (Prod.mk.inj same).2
    cases distinct (node?_of_planned planned here) (node?_of_planned planned' here') uids
    exact components_apart formed (getElem?_components_of_planned planned)
      (getElem?_components_of_planned planned') (SortedMap.contains_iff.mpr ⟨n, here⟩)
      (SortedMap.contains_iff.mpr ⟨n', here'⟩)

/-! ## Agreement -/

theorem Job.creation?_key {record : ConstructRecord} (created : job.creation? key = some record) :
    job.key = key := by
  by_contra different
  rw [(untouched different).1] at created
  cases created

/-- All topics are created alike. -/
theorem Job.creation?_topic {name : String} {record : ConstructRecord}
    (created : job.creation? (.topic, name) = some record) :
    record = { kind := .topic, name, spec := (TopicConfig.toJson {}).sorted } := by
  have key := creation?_key created
  cases job with
  | sink s =>
    obtain ⟨kind, spec⟩ := s
    cases kind <;> cases key
    simpa [creation?, call, Call.createTopic] using created.symm
  | function f => cases key
  | step s =>
    cases s with
    | ensureChannel channel =>
      cases key
      simpa [creation?, call] using created.symm
    | grantPublish | notify | subscribe => cases created

/-- Sinks of one kind and name are one sink when components agree on them. -/
theorem OrchestrationGraph.SharedSinksAgree.unique (shared : g.SharedSinksAgree channel)
    {s t : SinkPlan} (first : PlannedJob g channel (.sink s))
    (second : PlannedJob g channel (.sink t)) (kind : s.kind = t.kind)
    (name : s.spec.name = t.spec.name) : s = t := by
  obtain ⟨i, c, p, listed, inside⟩ := first
  obtain ⟨j, c', q, listed', inside'⟩ := second
  have sinks {c : OrchestrationGraph} {p : SubgraphPlan} {s : SinkPlan}
      (inside : Job.sink s ∈ (stages c p).flatten) : s ∈ p.sinks := by
    rcases mem_stages.mp inside with ⟨_, member, ⟨⟩⟩ | ⟨_, -, ⟨⟩⟩ | ⟨_, -, ⟨⟩⟩
    exact member
  by_cases same : i = j
  · subst same
    obtain ⟨rfl, equal⟩ := planned_functional listed listed'
    cases equal
    obtain ⟨edges, -, rfl⟩ := exists_edges_of_planned listed
    exact List.inj_on_of_nodup_map (SubgraphPlan.sinksOf_nodup _ _) (sinks inside) (sinks inside')
      (Prod.ext kind name)
  · obtain ⟨_, _, _⟩ := s
    obtain ⟨_, _, _⟩ := t
    cases kind
    cases name
    cases shared _ _ _ _ _ _ listed listed' same _ (sinks inside) _ (sinks inside') rfl rfl
    rfl

/-- Functions of one identity are one function. -/
theorem OrchestrationGraph.DistinctUids.unique (distinct : g.DistinctUids)
    {f f' : FunctionDeployment} (first : PlannedJob g channel (.function f))
    (second : PlannedJob g channel (.function f')) (uid : f.uid = f'.uid) : f = f' := by
  have node {f : FunctionDeployment} (planned : PlannedJob g channel (.function f)) :
      ∃ name n, g.node? name = some n ∧ n.deployment = f := by
    obtain ⟨i, c, p, listed, inside⟩ := planned
    rcases mem_stages.mp inside with ⟨_, -, ⟨⟩⟩ | ⟨n, member, ⟨⟩⟩ | ⟨_, -, ⟨⟩⟩
    obtain ⟨name, found⟩ := SortedMap.mem_values.mp member
    exact ⟨name, n, node?_of_planned listed found, rfl⟩
  obtain ⟨name, n, found, rfl⟩ := node first
  obtain ⟨name', n', found', rfl⟩ := node second
  cases distinct found found' uid
  cases found.symm.trans found'
  rfl

/-- Constructs that several components create are created alike. -/
theorem OrchestrationGraph.SharedSinksAgree.agree (shared : g.SharedSinksAgree channel)
    (distinct : g.DistinctUids) : Agree (PlannedJob g channel) := by
  intro job job' key record record' planned planned' created created'
  obtain ⟨kind, name⟩ := key
  have keyed := Job.creation?_key created
  have keyed' := Job.creation?_key created'
  by_cases topic : kind = .topic
  · subst topic
    rw [Job.creation?_topic created, Job.creation?_topic created']
  have equal : job = job' := by
    cases job with
    | sink s =>
      cases job' with
      | sink t =>
        obtain ⟨kinds, names⟩ := Prod.mk.inj (keyed.trans keyed'.symm)
        rw [shared.unique planned planned' (SinkKind.construct_injective kinds) names]
      | function f =>
        exact absurd (Prod.mk.inj (keyed.trans keyed'.symm)).1 s.kind.construct_ne_function
      | step s' =>
        cases s' with
        | ensureChannel => exact absurd (Prod.mk.inj keyed').1.symm topic
        | grantPublish | notify | subscribe => cases created'
    | function f =>
      cases job' with
      | sink t =>
        exact absurd (Prod.mk.inj (keyed'.trans keyed.symm)).1 t.kind.construct_ne_function
      | function f' =>
        rw [distinct.unique planned planned' (Prod.mk.inj (keyed.trans keyed'.symm)).2]
      | step s' =>
        cases s' with
        | ensureChannel => exact absurd (Prod.mk.inj keyed').1.symm topic
        | grantPublish | notify | subscribe => cases created'
    | step s =>
      cases s with
      | ensureChannel => exact absurd (Prod.mk.inj keyed).1.symm topic
      | grantPublish | notify | subscribe => cases created
  subst equal
  exact Option.some.inj (created.symm.trans created')

/-- Components agree on sinks when all functions of the graph do. -/
theorem OrchestrationGraph.SharedSinksAgree.of_bindings
    (same : ∀ {a b : String} {n m : OrchestrationNode}, g.node? a = some n → g.node? b = some m →
      ∀ s ∈ n.deployment.sinks, ∀ t ∈ m.deployment.sinks, s.kind = t.kind → s.target = t.target →
        s.config = t.config) : g.SharedSinksAgree channel := by
  intro i j c c' p q listed listed' _ s inside t inside' kind name
  obtain ⟨_, n, found, b, binding, rfl⟩ := exists_binding_of_planned listed inside
  obtain ⟨_, m, found', b', binding', rfl⟩ := exists_binding_of_planned listed' inside'
  exact same found found' b binding b' binding' kind name

/-- Identities are distinct when no two are listed twice. -/
theorem OrchestrationGraph.DistinctUids.of_nodup (nodup : (g.nodes.entries.map (·.2.uid)).Nodup) :
    g.DistinctUids := by
  intro a b n m found found' uid
  have equal := List.inj_on_of_nodup_map nodup (SortedMap.mem_entries.mpr found)
    (SortedMap.mem_entries.mpr found') uid
  exact (Prod.mk.inj equal).1

/-! ## Two components that share a bucket -/

namespace OrchestrationGraph

/-- Another function that writes into the bucket of the collector. -/
def archiver : OrchestrationNode where
  name := "archiver"
  deployment :=
    { uid := "archiver", code := "", runtime := "", requirements := [], handler := "",
      codeLocation := "", params := {}
      sinks := [{ name := "copy", kind := .bucket, target := "raw-data" }] }

def auditor : OrchestrationNode where
  name := "auditor"
  deployment :=
    { uid := "auditor", code := "", runtime := "", requirements := [], handler := "",
      codeLocation := "", params := {}
      sinks := [] }

/-- Two pairs of functions of which the first sets off the second. -/
def relays : Option OrchestrationGraph := do
  let g ← relay
  let g ← g.insert? archiver
  let g ← g.insert? auditor
  (g.addEdge "archiver" "auditor" {}).toOption

theorem exists_relays :
    ∃ g plan, relays = some g ∧ g.Built ∧ g.DistinctUids ∧ g.SharedSinksAgree "done" ∧
      g.plan "done" = .ok plan := by
  have steps : ∃ g₁ g₂ g₃ g₄ g₅ g,
      (empty true).insert? collector = some g₁ ∧ g₁.insert? indexer = some g₂ ∧
      g₂.addEdge "collector" "indexer" {} = .ok g₃ ∧ g₃.insert? archiver = some g₄ ∧
      g₄.insert? auditor = some g₅ ∧ g₅.addEdge "archiver" "auditor" {} = .ok g ∧
      relays = some g ∧ (g.plan "done").isOk = true ∧
      g.nodes.entries = [("archiver", archiver), ("auditor", auditor), ("collector", collector),
        ("indexer", indexer)] := by
    refine ⟨_, _, _, _, _, _, rfl, rfl, rfl, rfl, rfl, rfl, rfl, ?_, rfl⟩
    decide +kernel
  obtain ⟨g₁, g₂, g₃, g₄, g₅, g, first, second, wired, third, fourth, wired', equal, plannable,
    entries⟩ := steps
  have built : g.Built :=
    .addEdge (.insert (.insert (.addEdge (.insert (.insert (.empty true) first) second) wired)
      third) fourth) wired'
  have distinct : g.DistinctUids := @DistinctUids.of_nodup g (by rw [entries]; decide)
  have shared : g.SharedSinksAgree "done" := by
    have plain {name : String} {n : OrchestrationNode} (found : g.node? name = some n) :
        ∀ s ∈ n.deployment.sinks, s.config = ∅ := by
      have listed := SortedMap.mem_entries.mpr found
      rw [entries] at listed
      simp only [List.mem_cons, List.not_mem_nil, or_false, Prod.mk.injEq] at listed
      rcases listed with ⟨-, rfl⟩ | ⟨-, rfl⟩ | ⟨-, rfl⟩ | ⟨-, rfl⟩ <;> intro s member
      · rw [List.mem_singleton.mp member]
      · cases member
      · rw [List.mem_singleton.mp member]
      · cases member
    refine .of_bindings fun found found' s member t member' _ _ => ?_
    rw [plain found s member, plain found' t member']
  cases planned : g.plan "done" with
  | error e =>
    rw [planned] at plannable
    cases plannable
  | ok plan => exact ⟨g, plan, equal, built, distinct, shared, planned⟩

end OrchestrationGraph

end RestWiring

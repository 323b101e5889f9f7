import RestWiring.Proofs.Deployment.Deployed
import RestWiring.Proofs.Orchestration.Partition
import RestWiring.Proofs.Orchestration.Units

/-!
# What a stack consists of

A deployment on an empty backend leaves one construct for every function of the plan, one for every
kind and target that its sinks have, and the channel if anything is wired. The manifest lists these
constructs, each once.
-/
namespace RestWiring

variable {g : OrchestrationGraph} {channel deploymentId : String} {plan : DeploymentPlan}
  {key : ConstructKey} {cs : Constructs}

/-! ## Manifests -/

/-- The keys of a manifest tell kinds and names apart. -/
theorem ConstructRecord.key_injective {r r' : ConstructRecord} (same : r.key = r'.key) :
    (r.kind, r.name) = (r'.kind, r'.name) := by
  have chars : r.kind.text.toList ++ '/' :: r.name.toList =
      r'.kind.text.toList ++ '/' :: r'.name.toList := by
    simpa [key] using congrArg String.toList same
  cases kind : r.kind <;> cases kind' : r'.kind <;>
    simp_all [ConstructKind.text, String.toList_inj]

theorem Manifest.values_ofRecords_perm {records : List ConstructRecord}
    (nodup : (records.map (·.key)).Nodup) : (Manifest.ofRecords records).values.Perm records := by
  have distinct : ((records.map fun r => (r.key, r)).map (·.1)).Nodup := by
    simpa [Function.comp_def] using nodup
  have entries := SortedMap.entries_ofList_perm distinct
  simpa [SortedMap.values, Manifest.ofRecords, Function.comp_def] using entries.map (·.2)

theorem Registry.map_values_kind_name (named : Named cs) :
    (cs.values.map fun r => (r.kind, r.name)) = cs.keys := by
  rw [SortedMap.values, SortedMap.keys, List.map_map]
  exact List.map_congr_left fun e listed => named e.1 e.2 (SortedMap.mem_entries.mp listed)

/-- Constructs have different keys in a manifest. -/
theorem Registry.map_values_key_nodup (named : Named cs) : (cs.values.map (·.key)).Nodup := by
  have distinct : (cs.values.map fun r => (r.kind, r.name)).Nodup := by
    rw [map_values_kind_name named]
    exact cs.keys_nodup
  refine List.Nodup.map_on (fun r member r' member' same => ?_) (.of_map _ distinct)
  exact List.inj_on_of_nodup_map distinct member member' (ConstructRecord.key_injective same)

/-- A manifest lists every construct, once. -/
theorem Registry.manifest_perm (named : Named cs) :
    ((manifest cs).values.map fun r => (r.kind, r.name)).Perm cs.keys := by
  rw [← map_values_kind_name named]
  exact (Manifest.values_ofRecords_perm (map_values_key_nodup named)).map _

/-- Applying a stack answers its manifest. -/
theorem Registry.perform_deploy {r : Registry} (spares : r.Spares "stack") :
    (r.perform .deploy).1 = .ok (.manifest (manifest r.constructs)) := by
  have spared : useFailure Call.deploy.logged.name r.failures = none := spares
  rw [perform_succeeds spared rfl]

/-! ## Plans -/

namespace DeploymentPlan

/-- The constructs that a plan asks for: its functions, its sinks, of each kind and target one, and
the channel if there are steps. -/
def constructs (plan : DeploymentPlan) : List ConstructKey :=
  ((plan.subgraphs.flatMap (·.functions)).map fun uid => (.function, uid)) ++
    ((plan.subgraphs.flatMap (·.sinks)).map fun s => (s.kind.construct, s.spec.name)).dedup ++
    if plan.subgraphs.any (!·.steps.isEmpty) then [(.topic, plan.channel)] else []

theorem mem_constructs :
    key ∈ plan.constructs ↔
      (∃ p ∈ plan.subgraphs, ∃ uid ∈ p.functions, (.function, uid) = key) ∨
      (∃ p ∈ plan.subgraphs, ∃ s ∈ p.sinks, (s.kind.construct, s.spec.name) = key) ∨
      (∃ p ∈ plan.subgraphs, p.steps ≠ []) ∧ key = (.topic, plan.channel) := by
  have wired : plan.subgraphs.any (!·.steps.isEmpty) = true ↔
      ∃ p ∈ plan.subgraphs, p.steps ≠ [] := by simp
  rw [constructs, List.mem_append, List.mem_append, List.mem_dedup, or_assoc]
  refine or_congr ?_ (or_congr ?_ ?_)
  · simp only [List.mem_map, List.mem_flatMap]
    constructor
    · rintro ⟨uid, ⟨p, member, listed⟩, equal⟩
      exact ⟨p, member, uid, listed, equal⟩
    · rintro ⟨p, member, uid, listed, equal⟩
      exact ⟨uid, ⟨p, member, listed⟩, equal⟩
  · simp only [List.mem_map, List.mem_flatMap]
    constructor
    · rintro ⟨s, ⟨p, member, listed⟩, equal⟩
      exact ⟨p, member, s, listed, equal⟩
    · rintro ⟨p, member, s, listed, equal⟩
      exact ⟨s, ⟨p, member, listed⟩, equal⟩
  · rw [← wired]
    split
    · rename_i steps
      simp [steps]
    · rename_i none
      simp [none]

/-- No construct is asked for twice when the functions are distinct and no sink is a topic. -/
theorem constructs_nodup (functions : (plan.subgraphs.flatMap (·.functions)).Nodup)
    (storage : ∀ p ∈ plan.subgraphs, ∀ s ∈ p.sinks, s.kind ≠ .topic) : plan.constructs.Nodup := by
  have sink {s : SinkPlan} (member : s ∈ plan.subgraphs.flatMap (·.sinks)) :
      s.kind.construct ≠ .function ∧ s.kind.construct ≠ .topic := by
    obtain ⟨p, listed, inside⟩ := List.mem_flatMap.mp member
    refine ⟨s.kind.construct_ne_function, fun topic => storage p listed s inside ?_⟩
    exact SinkKind.construct_injective topic
  refine List.Nodup.append (List.Nodup.append ?_ (List.nodup_dedup _) ?_) ?_ ?_
  · exact functions.map fun uid uid' same => (Prod.mk.inj same).2
  · intro key first second
    obtain ⟨uid, -, rfl⟩ := List.mem_map.mp first
    obtain ⟨s, member, equal⟩ := List.mem_map.mp (List.mem_dedup.mp second)
    exact (sink member).1 (Prod.mk.inj equal).1
  · split
    · exact List.nodup_singleton _
    · exact .nil
  · intro key first second
    split at second
    · rw [List.mem_singleton.mp second, List.mem_append, List.mem_dedup] at first
      rcases first with first | first
      · obtain ⟨uid, -, equal⟩ := List.mem_map.mp first
        cases equal
      · obtain ⟨s, member, equal⟩ := List.mem_map.mp first
        exact (sink member).2 (Prod.mk.inj equal).1
    · cases second

end DeploymentPlan

/-- What the planned jobs provide is what the plan asks for. -/
theorem exists_planned_provides_iff (planned : g.plan channel = .ok plan) :
    (∃ job, PlannedJob g channel job ∧ job.provides = some key) ↔ key ∈ plan.constructs := by
  have same := (OrchestrationGraph.plan_success_iff.mp planned).1
  rw [DeploymentPlan.mem_constructs, same]
  constructor
  · rintro ⟨job, ⟨index, c, p, listed, member⟩, provided⟩
    have inside := (OrchestrationGraph.mem_subgraphs planned).mpr ⟨index, c, listed⟩
    obtain ⟨edges, -, rfl⟩ := OrchestrationGraph.exists_edges_of_planned listed
    rcases mem_stages.mp member with ⟨s, sink, rfl⟩ | ⟨n, node, rfl⟩ | ⟨s, step, rfl⟩
    · exact .inr (.inl ⟨_, inside, s, sink, Option.some.inj provided⟩)
    · exact .inl ⟨_, inside, n.uid, List.mem_map_of_mem node, Option.some.inj provided⟩
    · refine .inr (.inr ⟨⟨_, inside, List.ne_nil_of_mem step⟩, ?_⟩)
      obtain ⟨-, rfl | ⟨start, on, -, rfl | rfl⟩ | ⟨e, -, rfl⟩⟩ := SubgraphPlan.mem_wiring.mp step
      · exact (Option.some.inj provided).symm
      · cases provided
      · cases provided
      · cases provided
  · intro asked
    have exists_component {p : SubgraphPlan} (inside : p ∈ plan.subgraphs) :
        ∃ index c edges, (index, c, .ok p) ∈ g.planned channel ∧
          p = .ofEdges index c channel edges := by
      obtain ⟨index, c, listed⟩ := (OrchestrationGraph.mem_subgraphs planned).mp inside
      obtain ⟨edges, -, equal⟩ := OrchestrationGraph.exists_edges_of_planned listed
      exact ⟨index, c, edges, listed, equal⟩
    rcases asked with ⟨p, inside, uid, function, rfl⟩ | ⟨p, inside, s, sink, rfl⟩ |
      ⟨⟨p, inside, steps⟩, rfl⟩
    · obtain ⟨index, c, edges, listed, rfl⟩ := exists_component inside
      obtain ⟨n, node, rfl⟩ := List.mem_map.mp function
      exact ⟨_, ⟨index, c, _, listed, mem_stages.mpr (.inr (.inl ⟨n, node, rfl⟩))⟩, rfl⟩
    · obtain ⟨index, c, edges, listed, -⟩ := exists_component inside
      exact ⟨_, ⟨index, c, p, listed, mem_stages.mpr (.inl ⟨s, sink, rfl⟩)⟩, rfl⟩
    · obtain ⟨index, c, edges, listed, rfl⟩ := exists_component inside
      rcases SubgraphPlan.wiring_cases channel edges with nothing | ⟨others, equal⟩
      · exact absurd nothing steps
      · have first : WiringStep.ensureChannel channel ∈ SubgraphPlan.wiring channel edges := by
          rw [equal]
          exact List.mem_cons_self
        exact ⟨_, ⟨index, c, _, listed, mem_stages.mpr (.inr (.inr ⟨_, first, rfl⟩))⟩, rfl⟩

namespace OrchestrationGraph.Renders

variable {config : CompilerConfig} {units : List FunctionUnit}

/-- The plan of a derived graph asks for no construct twice. -/
theorem constructs_nodup (renders : g.Renders config units) (formed : g.WellFormed)
    (planned : g.plan channel = .ok plan) : plan.constructs.Nodup := by
  refine plan.constructs_nodup ?_ fun p member s sink => ?_
  · exact (plan_functions_perm planned formed).nodup_iff.mpr renders.functions_nodup
  · obtain ⟨index, c, listed⟩ := (mem_subgraphs planned).mp member
    obtain ⟨name, n, found, b, binding, rfl⟩ := exists_binding_of_planned listed sink
    exact renders.sinks_kind found b binding

end OrchestrationGraph.Renders

/-- A deployment on an empty backend leaves the constructs that the plan asks for, each once. -/
theorem Deployment.EndsIn.inventory {retry : RetryPolicy} {w : World} {turns : List Turn}
    {outcome : DeploymentReport × World}
    (ends : EndsIn { retry } deploymentId channel g w turns outcome)
    (planned : g.plan channel = .ok plan) (nodup : plan.constructs.Nodup)
    (running : w.cancelled = false) (unharmed : w.registry.failures = [])
    (empty : w.registry.constructs = ∅) (uncancelled : .cancel ∉ turns) :
    ((Registry.manifest outcome.2.registry.constructs).values.map fun r => (r.kind, r.name)).Perm
      plan.constructs := by
  obtain ⟨-, done, all, realises⟩ := ends.calm planned running unharmed empty uncancelled
  refine (Registry.manifest_perm fun key record found => realises.named found).trans ?_
  refine (List.perm_ext_iff_of_nodup (SortedMap.keys_nodup _) nodup).mpr fun key => ?_
  rw [SortedMap.mem_keys_iff_contains, realises.contains_iff, ← exists_planned_provides_iff planned]
  simp only [all]

end RestWiring

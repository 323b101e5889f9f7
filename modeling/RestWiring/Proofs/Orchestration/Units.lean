import RestWiring.Proofs.Orchestration.Derive

/-!
# The nodes of derived graphs

Every unit becomes one node, under the qualified name of the unit and with the function that the
unit renders to. No name and no identity is given out twice.
-/
namespace RestWiring

variable {config : CompilerConfig} {units past : List FunctionUnit} {unit : FunctionUnit}
  {uids : SortedSet String} {files files' : FileStore} {g g' : OrchestrationGraph}
  {deployment : FunctionDeployment}

namespace CompilerConfig

theorem compile_success (success : config.compile files unit = .ok (deployment, files')) :
    config.render unit = .ok deployment := by
  obtain ⟨rendered, render, written⟩ := bind_success_iff.mp success
  split at written
  · cases written
    exact render
  · cases written

/-- A function has the identity and the sinks of its unit. -/
theorem render_success (success : config.render unit = .ok deployment) :
    deployment.uid = unit.uid ∧ deployment.sinks = unit.sinks := by
  obtain ⟨tree, -, success⟩ := bind_success_iff.mp success
  obtain ⟨texts, -, equal⟩ := bind_success_iff.mp success
  cases equal
  exact ⟨rfl, rfl⟩

end CompilerConfig

/-- With the identity of one more unit, those are taken that the units have with it. -/
theorem taken_snoc (taken : ∀ uid, uids.contains uid = true ↔ uid ∈ past.map (·.uid))
    (unit : FunctionUnit) (uid : String) :
    (uids.add unit.uid).contains uid = true ↔ uid ∈ (past ++ [unit]).map (·.uid) := by
  rw [SortedSet.contains_add, taken, List.map_append, List.mem_append, or_comm, List.map_singleton,
    List.mem_singleton]

namespace OrchestrationGraph

/-- Whether the nodes of a graph are what some units render to, one node for each unit. -/
structure Renders (config : CompilerConfig) (units : List FunctionUnit) (g : OrchestrationGraph) :
    Prop where
  names_nodup : (units.map (·.qualified)).Nodup
  uids_nodup : (units.map (·.uid)).Nodup
  contains_iff : ∀ {name : String}, g.contains name = true ↔ name ∈ units.map (·.qualified)
  node : ∀ {name : String} {n : OrchestrationNode}, g.node? name = some n →
    ∃ u ∈ units, u.qualified = name ∧ config.render u = .ok n.deployment

namespace Renders

theorem empty (config : CompilerConfig) : Renders config [] {} where
  names_nodup := .nil
  uids_nodup := .nil
  contains_iff := by simp [contains]
  node := by rintro name n ⟨⟩

/-- The nodes of a graph are all that matters. -/
theorem of_nodes (renders : g.Renders config units) (same : g'.nodes = g.nodes) :
    g'.Renders config units := by
  refine ⟨renders.names_nodup, renders.uids_nodup, fun {name} => ?_, fun {name n} found => ?_⟩
  · rw [contains, same]
    exact renders.contains_iff
  · rw [node?, same] at found
    exact renders.node found

/-- One more unit is rendered, whose name and identity are new. -/
theorem insert? {next : OrchestrationGraph} (renders : g.Renders config past)
    (rendered : config.render unit = .ok deployment) (new : g.contains unit.qualified = false)
    (unused : unit.uid ∉ past.map (·.uid))
    (inserted : g.insert? ⟨unit.qualified, deployment⟩ = some next) :
    next.Renders config (past ++ [unit]) := by
  have unnamed : unit.qualified ∉ past.map (·.qualified) := by
    rw [← renders.contains_iff, new]
    exact Bool.false_ne_true
  obtain ⟨_, same, nodes, -⟩ := insert?_of_new (n := ⟨unit.qualified, deployment⟩) new
  cases inserted.symm.trans same
  refine ⟨?_, ?_, fun {name} => ?_, fun {name n} found => ?_⟩
  · rw [List.map_append]
    exact renders.names_nodup.append (List.nodup_singleton _) (by simpa using unnamed)
  · rw [List.map_append]
    exact renders.uids_nodup.append (List.nodup_singleton _) (by simpa using unused)
  · rw [contains, nodes, SortedMap.contains_insert, List.map_append, List.mem_append,
      ← renders.contains_iff, or_comm, List.map_singleton, List.mem_singleton]
    rfl
  · rw [node?, nodes, SortedMap.find?_insert] at found
    split at found
    · rename_i named
      cases found
      exact ⟨unit, List.mem_append_right _ (List.mem_singleton_self _), named.symm, rendered⟩
    · obtain ⟨u, listed, named, equal⟩ := renders.node found
      exact ⟨u, List.mem_append_left _ listed, named, equal⟩

/-- The identities that are taken are those of the units before. -/
theorem addUnits (renders : g.Renders config past)
    (taken : ∀ uid, uids.contains uid = true ↔ uid ∈ past.map (·.uid))
    (success : addUnits config units uids g files = (.ok g', files')) :
    g'.Renders config (past ++ units) := by
  induction units generalizing past uids g files with
  | nil =>
    cases success
    rwa [List.append_nil]
  | cons unit units ih =>
    obtain ⟨deployment, next, written, new, unused, compiled, inserted, success⟩ :=
      addUnits_cons success
    have unused' : unit.uid ∉ past.map (·.uid) := by
      rw [← taken, unused]
      exact Bool.false_ne_true
    have rendered := CompilerConfig.compile_success compiled
    rw [List.append_cons]
    exact ih (renders.insert? rendered new unused' inserted) (taken_snoc taken unit) success

/-- Functions have identities of their own. -/
theorem functions_nodup (renders : g.Renders config units) :
    (g.nodes.values.map (·.uid)).Nodup := by
  rw [SortedMap.values, List.map_map]
  refine List.Nodup.map_on ?_ g.nodes.entries_nodup
  rintro ⟨name, n⟩ listed ⟨name', n'⟩ listed' same
  have found := SortedMap.mem_entries.mp listed
  have found' := SortedMap.mem_entries.mp listed'
  obtain ⟨u, member, rfl, rendered⟩ := renders.node found
  obtain ⟨u', member', rfl, rendered'⟩ := renders.node found'
  have uid : u.uid = u'.uid := by
    rw [← (CompilerConfig.render_success rendered).1, ← (CompilerConfig.render_success rendered').1]
    exact same
  cases List.inj_on_of_nodup_map renders.uids_nodup member member' uid
  cases found.symm.trans found'
  rfl

/-- The nodes are named as the units are. -/
theorem names_perm (renders : g.Renders config units) :
    (units.map (·.qualified)).Perm g.names :=
  (List.perm_ext_iff_of_nodup renders.names_nodup g.nodes.keys_nodup).mpr fun _ =>
    renders.contains_iff.symm.trans SortedMap.mem_keys_iff_contains.symm

end Renders

end OrchestrationGraph

/-- A derived graph has one node for each unit. -/
theorem orchestrate_renders {graph : ResolutionGraph}
    (success : (orchestrate config graph files).1 = .ok g) :
    g.Renders config (FunctionUnit.collect graph) := by
  unfold orchestrate at success
  split at success
  · cases success
  · rename_i nodes _ added
    obtain ⟨built, directed, -⟩ := addUnits_frame added (.empty true)
    obtain ⟨-, -, same, -⟩ := addEdges_success success built directed
    have renders : nodes.Renders config ([] ++ FunctionUnit.collect graph) :=
      .addUnits (.empty config) (by simp) added
    exact renders.of_nodes same

/-- The functions of derived graphs write into no topics. -/
theorem FunctionUnit.sinks_kind (u : FunctionUnit) : ∀ b ∈ u.sinks, b.kind ≠ .topic := by
  cases u with
  | supply resolver feeds => rintro b ⟨⟩
  | call endpoint resolvers authentication =>
    intro b member
    obtain ⟨output, -, rfl⟩ := List.mem_map.mp member
    cases output.kind <;> simp [OutputKind.sink]

theorem OrchestrationGraph.Renders.sinks_kind (renders : g.Renders config units) {name : String}
    {n : OrchestrationNode} (found : g.node? name = some n) :
    ∀ b ∈ n.deployment.sinks, b.kind ≠ .topic := by
  obtain ⟨u, -, -, rendered⟩ := renders.node found
  rw [(CompilerConfig.render_success rendered).2]
  exact u.sinks_kind

end RestWiring

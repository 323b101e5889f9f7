import RestWiring.Proofs.Deployment.Redeployment

/-!
# Failures stay inside their component

What goes wrong in one component does not show in the others: they are deployed all the same, and the
backend holds the same records of their functions as if nothing had gone wrong.
-/
namespace RestWiring

variable {g c : OrchestrationGraph} {channel deploymentId uid : String} {p : SubgraphPlan}
  {retry : RetryPolicy} {breaksDown : Option Nat} {i j : Nat} {w : World} {job : Job}

/-- Whether the failures that can still strike are injected for constructs that only the calls of one
component name. -/
def Registry.Confined (r : Registry) (g : OrchestrationGraph) (channel : String) (i : Nat) : Prop :=
  ∀ f ∈ r.failures, f.remaining ≠ some 0 → ∀ j c p, (j, c, .ok p) ∈ g.planned channel →
    ∀ job ∈ (stages c p).flatten, job.call.logged.name = f.construct → j = i

theorem Registry.Confined.untroubled {r : Registry} (confined : r.Confined g channel i)
    (only : ∀ k, breaksDown = some k → k = i) (listed : (j, c, .ok p) ∈ g.planned channel)
    (other : j ≠ i) : Untroubled { retry, breaksDown } g channel r j c p where
  planned := listed
  steady := fun broken => other (only j broken)
  spared := by
    intro job inside
    refine useFailure_eq_none_iff.mpr fun f member named => ?_
    by_contra pending
    exact other (confined f member pending j c p listed job inside named.symm)

/-- Whoever has been granted may publish. -/
theorem Replayable.publishes {base : Constructs} {jobs : List Job} {topic : String}
    (replayable : Replayable base jobs) (named : Named base)
    (granted : .step (.grantPublish topic uid) ∈ jobs) :
    Publishes (replay base jobs) topic uid := by
  have present := replayable.contains_of_touched named granted
  obtain ⟨record, found⟩ := SortedMap.contains_iff.mp present
  refine ⟨record, found, ?_⟩
  rw [replayable.find?_replay named] at found
  obtain ⟨first, -, rfl⟩ := Option.map_eq_some_iff.mp found
  refine SortedSet.contains_foldl_add.mpr (.inr (List.mem_filterMap.mpr ⟨_, granted, ?_⟩))
  simp [Job.publisher?, Job.key]

/-- The functions of a plan are those of its component. -/
theorem exists_function_job (listed : (j, c, .ok p) ∈ g.planned channel)
    (member : uid ∈ p.functions) :
    ∃ job ∈ (stages c p).flatten, job.key = (.function, uid) := by
  obtain ⟨edges, -, rfl⟩ := OrchestrationGraph.exists_edges_of_planned listed
  obtain ⟨n, inside, rfl⟩ := List.mem_map.mp member
  exact ⟨_, mem_stages.mpr (.inr (.inl ⟨n, inside, rfl⟩)), rfl⟩

/-- Whether what goes wrong in one component shows nowhere else: there is one report for each component,
and every other one that can be planned is deployed as if nothing had gone wrong, with the same records
of its functions and with its publishers granted. -/
structure Contained (g : OrchestrationGraph) (channel : String) (i : Nat)
    (harmed unharmed : DeploymentReport × World) : Prop where
  indices : harmed.1.subgraphs.map (·.index) = List.range g.components.length
  deployed : ∀ {j c p}, (j, c, .ok p) ∈ g.planned channel → j ≠ i →
    harmed.1.subgraphs[j]? = some ⟨j, some p, .deployed⟩ ∧
      unharmed.1.subgraphs[j]? = some ⟨j, some p, .deployed⟩
  functions : ∀ {j c p}, (j, c, .ok p) ∈ g.planned channel → j ≠ i → ∀ uid ∈ p.functions,
    ∃ record, harmed.2.registry.constructs.find? (.function, uid) = some record ∧
      unharmed.2.registry.constructs.find? (.function, uid) = some record
  publishers : ∀ {j c p}, (j, c, .ok p) ∈ g.planned channel → j ≠ i →
    ∀ topic uid, .grantPublish topic uid ∈ p.steps →
      Publishes harmed.2.registry.constructs topic uid

/-- When failures strike the calls of one component only, and no task but its own breaks down, what goes
wrong shows nowhere else, whatever turns are taken while nobody cancels. -/
theorem failures_stay_inside (retry : RetryPolicy) (breaksDown : Option Nat)
    (deploymentId channel : String) (g : OrchestrationGraph) (i : Nat) (w w' : World)
    (built : g.Built) (distinct : g.DistinctUids) (backend : w.registry.Built)
    (confined : w.registry.Confined g channel i) (only : ∀ k, breaksDown = some k → k = i)
    (running : w.cancelled = false) (same : w'.registry.constructs = w.registry.constructs)
    (quiet : w'.registry.Quiet) (running' : w'.cancelled = false) :
    (∀ turns turns' harmed unharmed, .cancel ∉ turns → .cancel ∉ turns' →
      Deployment.EndsIn { retry, breaksDown } deploymentId channel g w turns harmed →
      Deployment.EndsIn { retry } deploymentId channel g w' turns' unharmed →
      Contained g channel i harmed unharmed) ∧
    Contained g channel i
      ((deploy { retry, breaksDown } deploymentId false channel g w).1,
        (deploy { retry, breaksDown } deploymentId false channel g w).2.1)
      ((deploy { retry } deploymentId false channel g w').1,
        (deploy { retry } deploymentId false channel g w').2.1) := by
  have named := backend.named
  have coordinated := OrchestrationGraph.coordinated built.wellFormed distinct channel
  have every : ∀ turns turns' harmed unharmed, .cancel ∉ turns → .cancel ∉ turns' →
      Deployment.EndsIn { retry, breaksDown } deploymentId channel g w turns harmed →
      Deployment.EndsIn { retry } deploymentId channel g w' turns' unharmed →
      Contained g channel i harmed unharmed := by
    intro turns turns' harmed unharmed uncancelled uncancelled' ends alone
    obtain ⟨trace, takes, replayable, constructs, each⟩ :=
      ends.untroubled uncancelled rfl running named
    obtain ⟨trace', interleaves, replayable', constructs', each'⟩ :=
      alone.interleaves uncancelled' running' quiet (same ▸ named)
    rw [same] at replayable' constructs'
    have done {j c p} (listed : (j, c, .ok p) ∈ g.planned channel) (other : j ≠ i) {job : Job}
        (inside : job ∈ (stages c p).flatten) : job ∈ trace.map (·.2) := by
      have linear := (each j c p (confined.untroubled only listed other)).2
      exact List.mem_map.mpr ⟨(j, job), mem_jobsOf.mp (linear.perm.symm.subset inside), rfl⟩
    refine ⟨ends.indices, fun listed other => ⟨?_, each' _ _ _ listed⟩,
      fun {j c p} listed other uid member => ?_, fun {j c p} listed other topic uid granted => ?_⟩
    · exact (each _ _ _ (confined.untroubled only listed other)).1
    · obtain ⟨job, inside, key⟩ := exists_function_job listed member
      have function : job.key.1 = .function := by rw [key]
      have found := OrchestrationGraph.parts_of_planned listed
      have linear := (each j c p (confined.untroubled only listed other)).2
      have record := coordinated.find?_replay takes found linear inside function named replayable
      have record' := coordinated.find?_replay interleaves.begins found (interleaves.each found)
        inside function named replayable'
      obtain ⟨stored, present⟩ := SortedMap.contains_iff.mp
        (replayable.contains_of_touched named (done listed other inside))
      rw [← key, constructs, constructs', record', ← record, present]
      exact ⟨stored, rfl, rfl⟩
    · rw [constructs]
      exact replayable.publishes named
        (done listed other (mem_stages.mpr (.inr (.inr ⟨_, granted, rfl⟩))))
  obtain ⟨turns, uncancelled, ends⟩ :=
    deploy_endsIn { retry, breaksDown } deploymentId channel g w
  obtain ⟨turns', uncancelled', alone⟩ := deploy_endsIn { retry } deploymentId channel g w'
  exact ⟨every, every turns turns' _ _ uncancelled uncancelled' ends alone⟩

/-- One of two components fails at its first function, and the other one is deployed. -/
theorem failures_stay_inside_relays :
    ∃ g, OrchestrationGraph.relays = some g ∧
      let harmed := deploy {} "first" false "done" g
        { registry := Registry.inject {} "archiver" none }
      let unharmed := deploy {} "first" false "done" g { registry := {} }
      harmed.1.subgraphs.map (·.status.isUnfinished) = [true, false] ∧
        Contained g "done" 0 (harmed.1, harmed.2.1) (unharmed.1, unharmed.2.1) := by
  obtain ⟨g, plan, relays, built, distinct, -, -⟩ := OrchestrationGraph.exists_relays
  have statuses : (OrchestrationGraph.relays.map fun g => (deploy {} "first" false "done" g
      { registry := Registry.inject {} "archiver" none }).1.subgraphs.map (·.status.isUnfinished)) =
        some [true, false] := by decide +kernel
  have apart : (OrchestrationGraph.relays.map fun g => (g.planned "done").all fun part =>
      part.1 == 0 || (assignmentOf part).2.2.flatten.all (·.call.logged.name != "archiver")) =
        some true := by decide +kernel
  rw [relays] at statuses apart
  have confined : (Registry.inject {} "archiver" none).Confined g "done" 0 := by
    intro f member _ j c p listed job inside named
    cases List.mem_singleton.mp member
    have other := List.all_eq_true.mp (Option.some.inj apart) _ listed
    rcases Bool.or_eq_true_iff.mp other with first | unnamed
    · exact eq_of_beq first
    · exact absurd named (bne_iff_ne.mp (List.all_eq_true.mp unnamed job inside))
  obtain ⟨-, contained⟩ := failures_stay_inside {} none "first" "done" g 0
    { registry := Registry.inject {} "archiver" none } { registry := {} } built distinct
    (.inject .empty _ _) confined (by simp) rfl rfl (by simp [Registry.Quiet]) rfl
  exact ⟨g, relays, Option.some.inj statuses, contained⟩

end RestWiring

import RestWiring.Proofs.Deployment.Parts

/-!
# Deploying again

A deployment that was broken off, in whatever way, has done the first jobs of every component. When
the graph is deployed once more and nothing goes wrong, these jobs are done again without effect, and
the backend holds what it would hold had nothing gone wrong the first time.
-/
namespace RestWiring

variable {settings : DeploymentSettings} {g : OrchestrationGraph} {channel deploymentId : String}
  {before broken after whole : Constructs} {w : World} {turns : List Turn}
  {outcome : DeploymentReport × World}

/-- Whether a deployment can leave these constructs behind, wherever it is stopped: failures may strike,
tasks may break down, and it may be cancelled. -/
def Leaves (g : OrchestrationGraph) (channel : String) (before after : Constructs) : Prop :=
  ∃ settings w turns d, w.registry.constructs = before ∧
    (Deployment.begin settings channel g w).takeAll? settings turns = some d ∧
    d.world.registry.constructs = after

/-- Whether a deployment that nothing disturbs can end with these constructs. -/
def Completes (g : OrchestrationGraph) (channel : String) (before after : Constructs) : Prop :=
  ∃ retry deploymentId w turns outcome, w.registry.constructs = before ∧ w.registry.Quiet ∧
    w.cancelled = false ∧ .cancel ∉ turns ∧
    Deployment.EndsIn { retry } deploymentId channel g w turns outcome ∧
    outcome.2.registry.constructs = after

theorem Leaves.refl (g : OrchestrationGraph) (channel : String) (cs : Constructs) :
    Leaves g channel cs cs :=
  ⟨{}, { registry := { constructs := cs } }, [], _, rfl, rfl, rfl⟩

theorem Deployment.EndsIn.leaves (ends : EndsIn settings deploymentId channel g w turns outcome) :
    Leaves g channel w.registry.constructs outcome.2.registry.constructs := by
  obtain ⟨d, taken, ended⟩ := ends
  obtain ⟨registry, -⟩ := Deployment.outcome?_spec ended
  exact ⟨settings, w, turns, d, rfl, taken, by rw [registry]⟩

theorem Completes.leaves (completes : Completes g channel before after) :
    Leaves g channel before after := by
  obtain ⟨_, _, _, _, _, rfl, -, -, -, ends, rfl⟩ := completes
  exact ends.leaves

/-- Every component has done its first jobs. -/
theorem Leaves.exists_begun (leaves : Leaves g channel before after) :
    ∃ trace, Takes Begins (g.parts channel) trace ∧ Replayable before (trace.map (·.2)) ∧
      after = replay before (trace.map (·.2)) := by
  obtain ⟨settings, w, turns, d, rfl, taken, rfl⟩ := leaves
  obtain ⟨trace, traces⟩ := (Deployment.Traces.begin settings channel g w).takeAll? taken
  have assigned :=
    (Deployment.takeAll?_assignments taken).trans (Deployment.begin_assignments settings channel g w)
  exact ⟨trace, traces.takes assigned, traces.replayable, traces.constructs⟩

/-- Every component has done all its jobs. -/
theorem Completes.exists_interleaving (completes : Completes g channel before after)
    (named : Named before) :
    ∃ trace, Interleaves (g.parts channel) trace ∧ Replayable before (trace.map (·.2)) ∧
      after = replay before (trace.map (·.2)) := by
  obtain ⟨retry, deploymentId, w, turns, outcome, rfl, quiet, running, uncancelled, ends, rfl⟩ :=
    completes
  obtain ⟨trace, interleaves, replayable, constructs, -⟩ :=
    ends.interleaves uncancelled running quiet named
  exact ⟨trace, interleaves, replayable, constructs⟩

theorem deploy_completes (retry : RetryPolicy) (deploymentId channel : String)
    (g : OrchestrationGraph) (quiet : w.registry.Quiet) (running : w.cancelled = false) :
    Completes g channel w.registry.constructs
      (deploy { retry } deploymentId false channel g w).2.1.registry.constructs := by
  obtain ⟨turns, uncancelled, ends⟩ := deploy_endsIn { retry } deploymentId channel g w
  exact ⟨retry, deploymentId, w, turns, _, rfl, quiet, running, uncancelled, ends, rfl⟩

/-- Components that have done all their jobs leave the same constructs behind, in whatever order they
took turns and whatever first jobs had been done before. -/
theorem Interleaves.replay_eq {begun again all : List (Nat × Job)} (formed : g.WellFormed)
    (distinct : g.DistinctUids) (shared : g.SharedSinksAgree channel) (named : Named before)
    (first : Takes Begins (g.parts channel) begun) (all_again : Interleaves (g.parts channel) again)
    (all_alone : Interleaves (g.parts channel) all)
    (replayable : Replayable before (begun.map (·.2)))
    (replayable_again : Replayable (replay before (begun.map (·.2))) (again.map (·.2)))
    (replayable_alone : Replayable before (all.map (·.2))) :
    replay (replay before (begun.map (·.2))) (again.map (·.2)) = replay before (all.map (·.2)) := by
  have agree : Agree fun job => ∃ stages ∈ g.parts channel, job ∈ stages.flatten := by
    intro job job' key record record' planned planned'
    exact shared.agree distinct (OrchestrationGraph.mem_parts.mp planned)
      (OrchestrationGraph.mem_parts.mp planned')
  exact (OrchestrationGraph.coordinated formed distinct channel).replay_eq agree named first
    all_again all_alone replayable replayable_again replayable_alone

/-- Two deployments that nothing disturbs end alike, also if one of them begins where another has been
broken off. -/
theorem Leaves.completes_alike (leaves : Leaves g channel before broken) (formed : g.WellFormed)
    (distinct : g.DistinctUids) (shared : g.SharedSinksAgree channel) (named : Named before)
    (healed : Completes g channel broken after) (alone : Completes g channel before whole) :
    after = whole := by
  obtain ⟨first, begun, replayable, rfl⟩ := leaves.exists_begun
  obtain ⟨again, all_again, replayable_again, rfl⟩ :=
    healed.exists_interleaving (replayable.spec named).1
  obtain ⟨jobs, all, replayable_alone, rfl⟩ := alone.exists_interleaving named
  exact Interleaves.replay_eq formed distinct shared named begun all_again all replayable
    replayable_again replayable_alone

/-- However a first deployment went and wherever it was stopped, deploying the same graph again without
disturbance ends with the constructs of a single deployment that nothing disturbs. After a complete
deployment it changes nothing. -/
theorem redeploy_heals (retry : RetryPolicy) (deploymentId channel : String)
    (g : OrchestrationGraph) (r : Registry) (w : World) (built : g.Built)
    (distinct : g.DistinctUids) (shared : g.SharedSinksAgree channel) (backend : r.Built)
    (same : w.registry.constructs = r.constructs) (quiet : w.registry.Quiet)
    (running : w.cancelled = false) :
    (∀ broken, Leaves g channel r.constructs broken → ∀ healed, Completes g channel broken healed ↔
      healed = (deploy { retry } deploymentId false channel g w).2.1.registry.constructs) ∧
    ∀ again,
      Completes g channel
        (deploy { retry } deploymentId false channel g w).2.1.registry.constructs again ↔
      again = (deploy { retry } deploymentId false channel g w).2.1.registry.constructs := by
  have alone := deploy_completes retry deploymentId channel g quiet running
  rw [same] at alone
  generalize (deploy { retry } deploymentId false channel g w).2.1.registry.constructs = whole
    at alone ⊢
  have heals : ∀ broken, Leaves g channel r.constructs broken →
      ∀ healed, Completes g channel broken healed ↔ healed = whole := by
    intro broken leaves healed
    have alike {after : Constructs} (completes : Completes g channel broken after) :
        after = whole :=
      leaves.completes_alike built.wellFormed distinct shared backend.named completes alone
    constructor
    · exact alike
    · rintro rfl
      have completes : Completes g channel broken _ :=
        deploy_completes (w := { registry := { constructs := broken } }) {} "" channel g
          (by simp [Registry.Quiet]) rfl
      exact alike completes ▸ completes
  exact ⟨heals, heals whole alone.leaves⟩

/-- A deployment that fails for good at one function is healed by the next one. -/
theorem redeploy_heals_relays :
    ∃ g, OrchestrationGraph.relays = some g ∧ ∃ broken whole,
      broken = (deploy {} "first" false "done" g
        { registry := Registry.inject {} "indexer" none }).2.1.registry.constructs ∧
      whole = (deploy {} "first" false "done" g { registry := {} }).2.1.registry.constructs ∧
      broken.contains (.function, "indexer") = false ∧
      whole.contains (.function, "indexer") = true ∧
      (∀ healed, Completes g "done" broken healed ↔ healed = whole) ∧
      ∀ again, Completes g "done" whole again ↔ again = whole := by
  obtain ⟨g, plan, relays, built, distinct, shared, -⟩ := OrchestrationGraph.exists_relays
  have missing : (OrchestrationGraph.relays.map fun g => (deploy {} "first" false "done" g
      { registry := Registry.inject {} "indexer" none }).2.1.registry.constructs.contains
        (.function, "indexer")) = some false := by decide +kernel
  have present : (OrchestrationGraph.relays.map fun g => (deploy {} "first" false "done" g
      { registry := {} }).2.1.registry.constructs.contains
        (.function, "indexer")) = some true := by decide +kernel
  rw [relays] at missing present
  obtain ⟨turns, -, ends⟩ := deploy_endsIn {} "first" "done" g
    { registry := Registry.inject {} "indexer" none }
  obtain ⟨heals, again⟩ := redeploy_heals {} "first" "done" g {} { registry := {} } built distinct
    shared .empty rfl (by simp [Registry.Quiet]) rfl
  exact ⟨g, relays, _, _, rfl, rfl, Option.some.inj missing, Option.some.inj present,
    heals _ ends.leaves, again⟩

end RestWiring

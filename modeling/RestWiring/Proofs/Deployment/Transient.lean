import RestWiring.Proofs.Deployment.Progress
import RestWiring.Proofs.Deployment.Redeployment

/-!
# Failures that pass leave no trace

When fewer failures are injected for each construct than a call has attempts, a deployment does not
show them: whichever calls they strike, all components are deployed, and the backend holds what it would
hold had no failure been injected.
-/
namespace RestWiring

variable {retry : RetryPolicy} {deploymentId channel : String} {g : OrchestrationGraph}
  {plan : DeploymentPlan} {w w' : World} {turns turns' : List Turn}
  {outcome outcome' : DeploymentReport × World}

/-- Whether all failures pass, for each construct before a call that names it has had all its
attempts. -/
structure Registry.Passing (limit : Nat) (r : Registry) : Prop where
  passing : ∀ f ∈ r.failures, f.remaining ≠ none
  fewer : ∀ f ∈ r.failures, pending f.construct r.failures < limit

theorem Registry.Passing.bears {limit : Nat} {r : Registry} (passing : r.Passing limit) (name : String) :
    Bears limit 1 name r.failures where
  passing := fun f member _ => passing.passing f member
  enough := by
    by_cases injected : ∃ f ∈ r.failures, f.construct = name
    · obtain ⟨f, member, rfl⟩ := injected
      exact .inr (Nat.one_add_le_iff.mpr (passing.fewer f member))
    · refine .inl (pending_eq_zero (useFailure_eq_none_iff.mpr fun f member named => ?_))
      exact absurd ⟨f, member, named⟩ injected

/-- A deployment whose failures pass ends with the constructs of one without failures. -/
theorem Deployment.EndsIn.constructs_eq (formed : g.WellFormed) (distinct : g.DistinctUids)
    (shared : g.SharedSinksAgree channel) (named : Named w.registry.constructs)
    (passing : w.registry.Passing retry.maxAttempts) (running : w.cancelled = false)
    (same : w'.registry.constructs = w.registry.constructs) (quiet : w'.registry.Quiet)
    (running' : w'.cancelled = false) (uncancelled : .cancel ∉ turns) (uncancelled' : .cancel ∉ turns')
    (ends : EndsIn { retry } deploymentId channel g w turns outcome)
    (alone : EndsIn { retry } deploymentId channel g w' turns' outcome') :
    outcome.2.registry.constructs = outcome'.2.registry.constructs := by
  obtain ⟨trace, interleaves, replayable, constructs, -⟩ :=
    ends.interleaves_of_bears uncancelled running passing.bears named
  obtain ⟨trace', interleaves', replayable', constructs', -⟩ :=
    alone.interleaves uncancelled' running' quiet (same ▸ named)
  rw [same] at replayable' constructs'
  have nothing : Takes Begins (g.parts channel) [] := ⟨by simp, fun _ => .nil⟩
  have replayed := Interleaves.replay_eq formed distinct shared named nothing interleaves interleaves'
    .nil replayable replayable'
  rw [constructs, constructs']
  exact replayed

/-- Failures that pass are invisible: however they fall on the calls and in whatever order components
take turns, all components are deployed and the backend holds what it would hold without failures. No
deployment stops short or runs for ever on their account. -/
theorem passing_failures_leave_no_trace (retry : RetryPolicy) (deploymentId channel : String)
    (g : OrchestrationGraph) (plan : DeploymentPlan) (w w' : World) (built : g.Built)
    (distinct : g.DistinctUids) (shared : g.SharedSinksAgree channel)
    (planned : g.plan channel = .ok plan) (backend : w.registry.Built)
    (passing : w.registry.Passing retry.maxAttempts) (running : w.cancelled = false)
    (same : w'.registry.constructs = w.registry.constructs) (quiet : w'.registry.Quiet)
    (running' : w'.cancelled = false) :
    (∀ turns outcome, .cancel ∉ turns →
      Deployment.EndsIn { retry } deploymentId channel g w turns outcome →
      outcome.1.subgraphs = plan.subgraphs.map (fun p => ⟨p.index, some p, .deployed⟩) ∧
      ∀ turns' unharmed, .cancel ∉ turns' →
        Deployment.EndsIn { retry } deploymentId channel g w' turns' unharmed →
        outcome.2.registry.constructs = unharmed.2.registry.constructs) ∧
    (∀ turns d, .cancel ∉ turns →
      (Deployment.begin { retry } channel g w).takeAll? { retry } turns = some d →
      turns.length ≤ (Deployment.begin { retry } channel g w).turnsLeft retry.maxAttempts ∧
      ∃ more outcome, .cancel ∉ more ∧
        Deployment.EndsIn { retry } deploymentId channel g w (turns ++ more) outcome) ∧
    (deploy { retry } deploymentId false channel g w).1.subgraphs =
      plan.subgraphs.map (fun p => ⟨p.index, some p, .deployed⟩) ∧
    (deploy { retry } deploymentId false channel g w).2.1.registry.constructs =
      (deploy { retry } deploymentId false channel g w').2.1.registry.constructs := by
  have formed := built.wellFormed
  have named := backend.named
  obtain ⟨turns, uncancelled, ends⟩ := deploy_endsIn { retry } deploymentId channel g w
  obtain ⟨turns', uncancelled', alone⟩ := deploy_endsIn { retry } deploymentId channel g w'
  refine ⟨fun turns outcome uncancelled ends => ⟨?_, fun turns' unharmed uncancelled' alone => ?_⟩,
    fun turns d uncancelled taken => ⟨?_, ?_⟩, ?_, ?_⟩
  · exact ends.deployed_of_bears uncancelled running passing.bears named planned
  · exact ends.constructs_eq formed distinct shared named passing running same quiet running'
      uncancelled uncancelled' alone
  · have bounded := Deployment.takeAll?_turnsLeft taken
    have all : turns.filter (· ≠ .cancel) = turns := by
      refine List.filter_eq_self.mpr fun turn member => decide_eq_true fun cancels => ?_
      exact uncancelled (cancels ▸ member)
    rw [all] at bounded
    exact (Nat.le_add_right _ _).trans bounded
  · exact Deployment.exists_endsIn taken deploymentId
  · exact ends.deployed_of_bears uncancelled running passing.bears named planned
  · have alike := ends.constructs_eq formed distinct shared named passing running same quiet running'
      uncancelled uncancelled' alone
    exact alike

/-- Two failures for a function and three for the channel of both components: five calls more are made,
and nothing else is different. -/
theorem passing_failures_leave_no_trace_relays :
    ∃ g plan, OrchestrationGraph.relays = some g ∧ g.plan "done" = .ok plan ∧
      let harmed := deploy {} "first" false "done" g
        { registry := (Registry.inject {} "collector" (some 2)).inject "done" (some 3) }
      let unharmed := deploy {} "first" false "done" g { registry := {} }
      harmed.2.1.registry.calls.length = unharmed.2.1.registry.calls.length + 5 ∧
        harmed.1.subgraphs = plan.subgraphs.map (fun p => ⟨p.index, some p, .deployed⟩) ∧
        harmed.2.1.registry.constructs = unharmed.2.1.registry.constructs := by
  obtain ⟨g, plan, relays, built, distinct, shared, planned⟩ := OrchestrationGraph.exists_relays
  have calls : (OrchestrationGraph.relays.map fun g => decide
      ((deploy {} "first" false "done" g { registry :=
        (Registry.inject {} "collector" (some 2)).inject "done" (some 3) }).2.1.registry.calls.length =
      (deploy {} "first" false "done" g { registry := {} }).2.1.registry.calls.length + 5)) =
        some true := by decide +kernel
  rw [relays] at calls
  have passing : ((Registry.inject {} "collector" (some 2)).inject "done" (some 3)).Passing 4 :=
    ⟨by decide, by decide⟩
  obtain ⟨-, -, deployed, constructs⟩ := passing_failures_leave_no_trace {} "first" "done" g plan
    { registry := (Registry.inject {} "collector" (some 2)).inject "done" (some 3) }
    { registry := {} } built distinct shared planned (.inject (.inject .empty _ _) _ _) passing rfl rfl
    (by simp [Registry.Quiet]) rfl
  exact ⟨g, plan, relays, planned, of_decide_eq_true (Option.some.inj calls), deployed, constructs⟩

end RestWiring

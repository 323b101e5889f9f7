import RestWiring.Deployment.Deploy
import RestWiring.Proofs.Orchestration.Plan

/-!
# Dry runs

A dry run has no tasks: its report says of every component whether it can be planned, in order.
-/
namespace RestWiring

/-- Reports that are in order stay as they are when they are put in order. -/
theorem foldr_insertReport {reports : List SubgraphReport}
    (ordered : reports.Pairwise fun r q => r.index ≤ q.index) :
    reports.foldr insertReport [] = reports := by
  induction ordered with
  | nil => rfl
  | @cons r reports first _ ih =>
    rw [List.foldr_cons, ih]
    cases reports with
    | nil => rfl
    | cons q rest => rw [insertReport, if_pos (first q List.mem_cons_self)]

/-- What a dry run reports on a component. -/
def dryReport : Nat × OrchestrationGraph × Except OrchestrationError SubgraphPlan → SubgraphReport
  | (index, _, .ok plan) => ⟨index, some plan, .planned⟩
  | (index, _, .error e) => ⟨index, none, .failed e⟩

theorem dryReport_index (p : Nat × OrchestrationGraph × Except OrchestrationError SubgraphPlan) :
    (dryReport p).index = p.1 := by
  obtain ⟨index, component, result⟩ := p
  cases result <;> rfl

section Prospects

variable {settings : DeploymentSettings}

theorem prospects_dryRun
    (planned : List (Nat × OrchestrationGraph × Except OrchestrationError SubgraphPlan))
    (w : World) :
    (prospects settings true planned w).1 = planned.map dryReport ∧
      (prospects settings true planned w).2.1 = [] ∧
      (prospects settings true planned w).2.2.registry = w.registry := by
  induction planned generalizing w with
  | nil => exact ⟨rfl, rfl, rfl⟩
  | cons p rest ih =>
    obtain ⟨index, component, result⟩ := p
    cases result with
    | ok plan =>
      obtain ⟨reports, tasks, registry⟩ := ih w
      simp only [prospects, if_true, List.map_cons]
      exact ⟨by rw [reports]; rfl, tasks, registry⟩
    | error e =>
      obtain ⟨reports, tasks, registry⟩ := ih (w.record settings (.subgraphFailed index e))
      simp only [prospects, List.map_cons]
      exact ⟨by rw [reports]; rfl, tasks, registry⟩

end Prospects

/-- Nothing happens when no task is waiting. -/
theorem Schedule.run_idle {settings : DeploymentSettings} {s : Schedule} (idle : s.waiting = [])
    (fuel : Nat) :
    s.run settings fuel = s := by
  obtain ⟨waiting, ended, world, time⟩ := s
  cases idle
  cases fuel with
  | zero => rfl
  | succ fuel =>
    rw [run]
    split <;> rfl

theorem planned_pairwise (g : OrchestrationGraph) (channel : String) :
    ((g.planned channel).map dryReport).Pairwise fun r q => r.index ≤ q.index := by
  have ascending : ((g.planned channel).map (·.1)).Pairwise (· ≤ ·) := by
    rw [OrchestrationGraph.planned_indices]
    exact List.pairwise_le_range
  rw [List.pairwise_map] at ascending ⊢
  simpa only [dryReport_index] using ascending

/-- A dry run reports on every component in order and leaves the backend alone. -/
theorem deploy_dryRun (settings : DeploymentSettings) (deploymentId channel : String)
    (g : OrchestrationGraph) (w : World) :
    (deploy settings deploymentId true channel g w).1.subgraphs =
      (g.planned channel).map dryReport ∧
      (deploy settings deploymentId true channel g w).2.1.registry = w.registry := by
  obtain ⟨reports, tasks, registry⟩ := @prospects_dryRun settings (g.planned channel)
    (w.record settings (.deploymentStarted (g.planned channel).length true))
  unfold deploy
  simp only [tasks, reports, List.foldl_nil, Schedule.run_idle, List.foldr_nil, conclude,
    List.append_nil,
    foldr_insertReport (planned_pairwise g channel)]
  exact ⟨trivial, registry⟩

/-- A graph that can be planned is reported as planned, component by component. -/
theorem deploy_dryRun_planned {settings : DeploymentSettings} {deploymentId channel : String}
    {g : OrchestrationGraph}
    {plan : DeploymentPlan} (planned : g.plan channel = .ok plan) (w : World) :
    (deploy settings deploymentId true channel g w).1.subgraphs =
      plan.subgraphs.map fun s => ⟨s.index, some s, .planned⟩ := by
  rw [(deploy_dryRun settings deploymentId channel g w).1]
  exact OrchestrationGraph.map_planned planned fun _ _ => rfl

end RestWiring

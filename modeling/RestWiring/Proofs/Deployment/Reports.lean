import RestWiring.Proofs.Deployment.DryRun
import RestWiring.Proofs.Deployment.Incidents
import RestWiring.Proofs.Orchestration.Representation

/-!
# Reports that agree

What a dry run reports is how the components are planned, and a graph can be planned as a whole when
every component is reported as planned. However a deployment of the same graph goes, it reports on the
same components with the same plans, and it leaves components that cannot be planned as the dry run
reports them.
-/
namespace RestWiring

variable {settings : DeploymentSettings} {g c : OrchestrationGraph} {channel deploymentId : String}
  {plan : DeploymentPlan} {w : World} {index place : Nat} {s : Recorded} {incidents : List Incident}
  {outcome : DeploymentReport × World}

/-! ## Dry runs -/

/-- Whether reports tell how the components of a graph are planned. -/
structure TellsPlans (g : OrchestrationGraph) (channel : String) (reports : List SubgraphReport) :
    Prop where
  indices : reports.map (·.index) = List.range g.components.length
  planned : ∀ {i c p}, g.components[i]? = some c →
    (reports[i]? = some ⟨i, some p, .planned⟩ ↔ SubgraphPlan.build i c channel = .ok p)
  unplanned : ∀ {i c e}, g.components[i]? = some c →
    (reports[i]? = some ⟨i, none, .failed e⟩ ↔ SubgraphPlan.build i c channel = .error e)
  plan_success : ∀ {plan}, g.plan channel = .ok plan ↔
    plan.channel = channel ∧ reports = plan.subgraphs.map fun p => ⟨p.index, some p, .planned⟩
  plannable : (∃ plan, g.plan channel = .ok plan) ↔ ∀ r ∈ reports, r.status = .planned
  /-- The error of the lowest index. -/
  plan_error : ∀ {e}, g.plan channel = .error e ↔
    ∃ i : Nat, reports[i]? = some ⟨i, none, .failed e⟩ ∧
      ∀ (j : Nat) r, j < i → reports[j]? = some r → r.status = .planned

theorem dryReport_planned_iff {p : Nat × OrchestrationGraph × Except OrchestrationError SubgraphPlan} :
    (dryReport p).status = .planned ↔ ∃ s, p.2.2 = .ok s := by
  obtain ⟨index, component, result⟩ := p
  cases result <;> simp [dryReport]

theorem getElem?_planned_of_component (found : g.components[index]? = some c) :
    (g.planned channel)[index]? = some (index, c, SubgraphPlan.build index c channel) := by
  simp [OrchestrationGraph.planned, found]

namespace OrchestrationGraph

theorem plan_error_iff {e : OrchestrationError} :
    g.plan channel = .error e ↔
      ∃ i : Nat, ((g.planned channel).map dryReport)[i]? = some ⟨i, none, .failed e⟩ ∧
        ∀ (j : Nat) r, j < i → ((g.planned channel).map dryReport)[j]? = some r →
          r.status = .planned := by
  have failed_iff : g.plan channel = .error e ↔
      (g.planned channel).mapM (fun p => p.2.2) = .error e := by
    unfold OrchestrationGraph.plan
    cases (g.planned channel).mapM fun p => p.2.2 <;> simp [bind, Except.bind, pure, Except.pure]
  rw [failed_iff, mapM_error_iff]
  simp only [List.getElem?_map, Option.map_eq_some_iff]
  refine exists_congr fun i => ⟨?_, ?_⟩
  · rintro ⟨⟨index, component, result⟩, found, failed, earlier⟩
    cases failed
    cases index_of_getElem?_planned found
    refine ⟨⟨_, found, rfl⟩, ?_⟩
    rintro j _ less ⟨p, here, rfl⟩
    exact dryReport_planned_iff.mpr (earlier j p less here)
  · rintro ⟨⟨⟨index, component, result⟩, found, equal⟩, earlier⟩
    refine ⟨_, found, ?_, fun j p less here =>
      dryReport_planned_iff.mp (earlier j _ less ⟨p, here, rfl⟩)⟩
    cases result <;> cases equal
    rfl

theorem tellsPlans (g : OrchestrationGraph) (channel : String) :
    TellsPlans g channel ((g.planned channel).map dryReport) where
  indices := by
    rw [List.map_map, ← g.planned_indices channel]
    exact List.map_congr_left fun p _ => dryReport_index p
  planned := by
    intro i c p found
    rw [List.getElem?_map, getElem?_planned_of_component found, Option.map_some]
    cases SubgraphPlan.build i c channel <;> simp [dryReport]
  unplanned := by
    intro i c e found
    rw [List.getElem?_map, getElem?_planned_of_component found, Option.map_some]
    cases SubgraphPlan.build i c channel <;> simp [dryReport]
  plan_success := by
    intro plan
    refine ⟨fun success => ⟨(plan_success_iff.mp success).1, map_planned success fun _ _ => rfl⟩, ?_⟩
    rintro ⟨same, reported⟩
    refine plan_success_iff.mpr ⟨same, ?_⟩
    have related := List.forall₂_eq_eq_eq ▸ reported
    rw [List.forall₂_map_left_iff, List.forall₂_map_right_iff] at related
    refine related.imp fun part p equal => ?_
    obtain ⟨index, component, result⟩ := part
    cases result <;> cases equal
    rfl
  plannable := by
    constructor
    · rintro ⟨plan, success⟩ r member
      rw [@map_planned _ _ _ _ success dryReport _ fun _ _ => rfl] at member
      obtain ⟨p, -, rfl⟩ := List.mem_map.mp member
      rfl
    · intro all
      exact plan_succeeds fun p member =>
        dryReport_planned_iff.mp (all _ (List.mem_map_of_mem member))
  plan_error := plan_error_iff

end OrchestrationGraph

/-! ## Deployments -/

theorem DeploymentReport.isSuccess_iff (report : DeploymentReport) :
    report.isSuccess = true ↔ ∀ r ∈ report.subgraphs, r.status = .planned ∨ r.status = .deployed := by
  rw [isSuccess, unfinished, List.isEmpty_iff, List.filter_eq_nil_iff]
  refine forall₂_congr fun r _ => ?_
  cases r.status <;> simp [SubgraphStatus.isUnfinished]

/-- Whether a deployment reports what a dry run makes expect, and components that are not planned make
no contact with the backend. -/
structure AgreesWith (dry : List SubgraphReport) (log : List (Nat × Contact))
    (report : DeploymentReport) : Prop where
  places : report.subgraphs.map (fun r => (r.index, r.plan)) = dry.map fun r => (r.index, r.plan)
  unplanned : ∀ {i : Nat} {r}, dry[i]? = some r → r.plan = none →
    report.subgraphs[i]? = some r ∧ ∀ contact, (i, contact) ∉ log
  success : report.isSuccess = true ↔
    ∀ r ∈ report.subgraphs, r.status = .planned ∨ r.status = .deployed

/-- Whether a component waits to be reported as failed, or has been, and has made no contact. -/
structure Idle (e : OrchestrationError) (r : Runner) (mine : List Contact) : Prop where
  unplanned : r.plan = none
  failing : r.activity = .closing (.failed e) ∨ r.activity = .over (some (.failed e))
  silent : mine = []

theorem Idle.step {e : OrchestrationError} {r : Runner} {mine : List Contact} {made : Option Contact}
    {activity : Activity} {w w' : World} (idle : Idle e r mine)
    (step : Activity.Step settings r.index r.stages r.activity w made activity w') :
    Idle e { r with activity } (mine ++ made.toList) := by
  obtain ⟨unplanned, closing | closed, rfl⟩ := idle
  · rw [closing] at step
    cases step
    exact ⟨unplanned, .inr rfl, rfl⟩
  · rw [closed] at step
    cases step

namespace Recorded

/-- Whatever comes upon a deployment, components that cannot be planned do nothing but fail. -/
theorem idle_throughout (befallen : (begin settings channel g w).befallAll? settings incidents = some s) :
    s.Throughout fun place r mine => ∀ c e, (place, c, .error e) ∈ g.planned channel → Idle e r mine := by
  refine befallAll?_induction (Throughout _) (fun _ => True) ?_ (fun _ all moves => ?_)
    (fun _ _ => trivial) befallen
  · intro place r found c e listed
    rw [begin, Deployment.begin, List.getElem?_map, OrchestrationGraph.getElem?_planned listed] at found
    cases found
    exact ⟨rfl, .inl rfl, rfl⟩
  -- Only planned components have tasks that may break down.
  · exact moves.throughout all (fun _ idle step c e listed => (idle c e listed).step step)
      fun _ idle task c e listed => absurd (idle c e listed).unplanned task

theorem agreesWith (befallen : (begin settings channel g w).befallAll? settings incidents = some s)
    (ended : s.deployment.outcome? settings deploymentId channel = some outcome) :
    AgreesWith ((g.planned channel).map dryReport) s.log outcome.1 where
  places := by
    rw [Deployment.outcome?_places (befallAll?_assigned befallen) ended, List.map_map]
    refine List.map_congr_left fun p _ => ?_
    obtain ⟨index, component, result⟩ := p
    cases result <;> rfl
  unplanned := by
    intro i r reported unplanned
    rw [List.getElem?_map] at reported
    obtain ⟨⟨index, component, result⟩, found, rfl⟩ := Option.map_eq_some_iff.mp reported
    cases OrchestrationGraph.index_of_getElem?_planned found
    cases result with
    | ok p => cases unplanned
    | error e =>
      have listed := List.mem_of_getElem? found
      obtain ⟨-, -, reports⟩ := Deployment.outcome?_spec ended
      obtain ⟨r, here, assignment⟩ :=
        Deployment.exists_runner_of_part (befallAll?_assigned befallen) found
      obtain ⟨status, closed, report⟩ := reports here
      obtain ⟨-, failing, silent⟩ := idle_throughout befallen _ r here component e listed
      obtain ⟨i, plan, stages, activity⟩ := r
      cases assignment
      subst closed
      obtain ⟨⟨⟩⟩ | ⟨⟨⟩⟩ := failing
      refine ⟨report, fun contact member => ?_⟩
      rw [← mem_contactsOf, silent] at member
      cases member
  success := outcome.1.isSuccess_iff

end Recorded

/-- Dry runs, plans and deployments of a graph agree. All dry runs report alike, on any backend, and
leave it alone. Their reports tell how the components, and with them the graph, are planned. Whatever
comes upon a deployment, it reports on the same components with the same plans; components that cannot
be planned fail as the dry run reports them and make no call. -/
theorem reports_agree (g : OrchestrationGraph) (channel : String) :
    ∃ reports, TellsPlans g channel reports ∧
      (∀ settings deploymentId w,
        (deploy settings deploymentId true channel g w).1.subgraphs = reports ∧
        (deploy settings deploymentId true channel g w).2.1.registry = w.registry) ∧
      (∀ settings w incidents s deploymentId outcome,
        (Recorded.begin settings channel g w).befallAll? settings incidents = some s →
        s.deployment.outcome? settings deploymentId channel = some outcome →
        AgreesWith reports s.log outcome.1) ∧
      ∀ settings deploymentId w, ∃ incidents s,
        (Recorded.begin settings channel g w).befallAll? settings incidents = some s ∧
        s.deployment.outcome? settings deploymentId channel =
          some ((deploy settings deploymentId false channel g w).1,
            (deploy settings deploymentId false channel g w).2.1) := by
  refine ⟨_, g.tellsPlans channel, fun settings deploymentId w =>
    deploy_dryRun settings deploymentId channel g w,
    fun _ _ _ _ _ _ befallen ended => Recorded.agreesWith befallen ended, ?_⟩
  intro settings deploymentId w
  obtain ⟨incidents, s, -, befallen, ended⟩ := Recorded.deploy_befallen settings deploymentId channel g w
  exact ⟨incidents, s, befallen, ended⟩

/-- A component that can be planned beside one that cannot. -/
def OrchestrationGraph.halfLooped : OrchestrationGraph :=
  after true [.insert (blank "a"), .insert (blank "b"), .insert (blank "c"), .addEdge "a" "b" {},
    .addEdge "c" "c" {}]

theorem reports_agree_halfLooped :
    ∃ dry : List SubgraphReport,
      dry.map (·.status) = [.planned, .failed (.wiringConflict 1 (.loop "c"))] ∧
      ∃ log, AgreesWith dry log
        (deploy { breaksDown := some 0 } "first" false "done" .halfLooped { registry := {} }).1 ∧
      ∀ contact, (1, contact) ∉ log := by
  obtain ⟨reports, -, dry, agree, deploys⟩ := reports_agree .halfLooped "done"
  obtain ⟨same, -⟩ := dry {} "first" { registry := {} }
  obtain ⟨incidents, s, befallen, ended⟩ :=
    deploys { breaksDown := some 0 } "first" { registry := {} }
  have agrees := agree _ _ incidents s "first" _ befallen ended
  have statuses : (deploy {} "first" true "done" .halfLooped
      { registry := {} }).1.subgraphs.map (fun r => (r.status, r.plan.isNone)) =
      [(.planned, false), (.failed (.wiringConflict 1 (.loop "c")), true)] := by decide +kernel
  rw [same] at statuses
  have second := congrArg (·[1]?) statuses
  obtain ⟨r, found, equal⟩ := Option.map_eq_some_iff.mp ((List.getElem?_map ..).symm.trans second)
  have unplanned : r.plan = none := Option.isNone_iff_eq_none.mp (Prod.mk.inj equal).2
  refine ⟨reports, ?_, s.log, agrees, (agrees.unplanned found unplanned).2⟩
  have first := congrArg (List.map Prod.fst) statuses
  rwa [List.map_map] at first

end RestWiring

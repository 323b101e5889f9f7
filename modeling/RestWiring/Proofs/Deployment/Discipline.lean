import RestWiring.Proofs.Deployment.DryRun
import RestWiring.Proofs.Deployment.Incidents
import RestWiring.Proofs.Deployment.Parts
import RestWiring.Proofs.Orchestration.Traversal

/-!
# Components keep to their phases

A log of what passes between the components of a deployment and the backend shows that every component
keeps to its phases and that nothing it needs is ever missing, whatever turns are taken, whatever
failures are injected meanwhile, whichever tasks break down and whoever else calls the backend, as long
as nobody tears it down.
-/
namespace RestWiring

variable {settings : DeploymentSettings} {g c : OrchestrationGraph} {channel : String}
  {p : SubgraphPlan} {w : World} {place index : Nat} {job : Job} {contact : Contact}
  {log before : List (Nat × Contact)} {s s' : Recorded} {r : Runner} {x : Incident}
  {incidents : List Incident} {broken : Nat → Prop}

/-! ## What is kept -/

/-- Whether every component has kept to its stages, and what the jobs that are done provide is there.
`broken` says of which components the tasks may have broken down on the way. -/
structure Recorded.Kept (settings : DeploymentSettings) (g : OrchestrationGraph) (channel : String)
    (broken : Nat → Prop) (s : Recorded) : Prop where
  assigned : s.deployment.runners.map Runner.assignment = (g.planned channel).map assignmentOf
  placed : ∀ e ∈ s.log, e.1 < s.deployment.runners.length
  keeps : ∀ {place : Nat} {r : Runner}, s.deployment.runners[place]? = some r →
    r.activity.Keeps r.stages (r.plan = none) (settings.breaksDown = some r.index ∨ broken place)
      (contactsOf s.log place)
  present : ∀ {place : Nat} {job : Job} {key : ConstructKey}, (place, .succeeded job) ∈ s.log →
    job.provides = some key → s.deployment.world.registry.constructs.contains key = true

/-- Whether an incident does not tear the backend down, and breaks down none but tasks that may break
down. -/
def Incident.Bearable (broken : Nat → Prop) (x : Incident) : Prop :=
  x ≠ .happening (.call .tearDown) ∧ ∀ place, x = .breakDown place → broken place

namespace Recorded.Kept

theorem begin (settings : DeploymentSettings) (g : OrchestrationGraph) (channel : String)
    (broken : Nat → Prop) (w : World) :
    (Recorded.begin settings channel g w).Kept settings g channel broken where
  assigned := Deployment.begin_assignments settings channel g w
  placed := nofun
  present := nofun
  keeps := by
    intro place r found
    obtain ⟨⟨index, component, result⟩, -, rfl⟩ := List.mem_map.mp (List.mem_of_getElem? found)
    cases result with
    | ok plan => exact ⟨fun _ => rfl, nofun, trivial, .nil⟩
    | error e =>
      exact ⟨fun _ => ⟨⟨false, [], []⟩, [], [], [], [], rfl, .nil, .nil, rfl⟩, nofun, .inl rfl, .nil⟩

theorem supplied (kept : s.Kept settings g channel broken)
    (found : s.deployment.runners[place]? = some r) : Supplied r.stages := by
  rcases Deployment.stages_of_assigned kept.assigned found with staged | ⟨c, p, listed, staged⟩
  · intro past stage later split
    rw [staged] at split
    simp at split
  · rw [staged]
    exact stages_supplied (OrchestrationGraph.mem_planned listed).2.symm

/-- Whatever comes upon a deployment, all components keep to their stages. -/
theorem moves (kept : s.Kept settings g channel broken) (bearable : x.Bearable broken)
    (moves : Moves settings x s s') : s'.Kept settings g channel broken := by
  have all : s.Throughout fun place r => r.activity.Keeps r.stages (r.plan = none)
      (settings.breaksDown = some r.index ∨ broken place) := fun _ _ => kept.keeps
  have keeps := moves.throughout all
    (fun found keeps step => keeps.step (kept.supplied found)
      (fun job done key => kept.present (mem_contactsOf.mp done)) .inl step)
    (fun {place _ _} down keeps _ => keeps.breakDown (.inr (bearable.2 place down)))
  refine ⟨moves.assignments.trans kept.assigned, moves.placed kept.placed, keeps _ _,
    fun {place job key} done provided => ?_⟩
  have stays {job : Job} (done : (place, .succeeded job) ∈ s.log) (provided : job.provides = some key) :=
    moves.contains bearable.1 (kept.present done provided)
  cases moves with
  | step found step =>
    rcases List.mem_append.mp done with earlier | last
    · exact stays earlier provided
    · obtain ⟨contact, rfl, equal⟩ := Option.map_eq_some_iff.mp (Option.mem_toList.mp last)
      cases equal
      exact step.contains_of_provides provided
  | breakDown | cancel | call | inject => exact stays done provided

theorem befallAll? (befallen : (Recorded.begin settings channel g w).befallAll? settings incidents =
      some s)
    (standing : .happening (.call .tearDown) ∉ incidents) :
    s.Kept settings g channel (.breakDown · ∈ incidents) := by
  refine befallAll?_induction _ (Incident.Bearable (.breakDown · ∈ incidents))
    (.begin settings g channel _ w) (fun bearable kept moves => kept.moves bearable moves) ?_ befallen
  intro x member
  refine ⟨fun same => standing (same ▸ member), ?_⟩
  rintro place rfl
  exact member

/-- Only a component that can be planned makes contact, and it does so in order. -/
theorem proper (kept : s.Kept settings g channel broken) (first : before ++ [(place, contact)] <+: s.log) :
    ∃ c p, (place, c, .ok p) ∈ g.planned channel ∧
      contact.Proper (stages c p) (contactsOf before place) := by
  have member : (place, contact) ∈ s.log := first.subset (by simp)
  have found := List.getElem?_eq_getElem (kept.placed _ member)
  have proper := (kept.keeps found).proper _ _ (contactsOf_initial first)
  rcases Deployment.stages_of_assigned kept.assigned found with staged | ⟨c, p, listed, staged⟩
  · rw [staged] at proper
    obtain ⟨work, progress, follows, inside⟩ := proper.next
    cases follows.mem_flatten inside
  · exact ⟨c, p, listed, staged ▸ proper⟩

end Recorded.Kept

/-! ## Phases -/

/-- Whether a log shows that all components have kept to their phases. -/
structure Disciplined (g : OrchestrationGraph) (channel : String) (log : List (Nat × Contact)) :
    Prop where
  planned : ∀ {i contact}, (i, contact) ∈ log → ∃ c p, (i, c, .ok p) ∈ g.planned channel
  due : ∀ {before i job c p}, before ++ [(i, .issued job)] <+: log →
    (i, c, .ok p) ∈ g.planned channel → Due c p (doneBy before i) job
  sinks_first : ∀ {before i job c p}, before ++ [(i, .issued job)] <+: log →
    (i, c, .ok p) ∈ g.planned channel → (∀ s, job ≠ .sink s) →
    ∀ s ∈ p.sinks, (i, .succeeded (.sink s)) ∈ before
  functions_first : ∀ {before i s c p}, before ++ [(i, .issued (.step s))] <+: log →
    (i, c, .ok p) ∈ g.planned channel →
    ∀ n ∈ c.nodes.values, (i, .succeeded (.function n.deployment)) ∈ before
  ensured : ∀ {before i s}, before ++ [(i, .issued (.step s))] <+: log →
    s = .ensureChannel channel ∨ (i, .succeeded (.step (.ensureChannel channel))) ∈ before
  /-- Only side by side with the job that has failed may other jobs still be called for. -/
  stopped : ∀ {before i job failed e}, before ++ [(i, .issued job)] <+: log →
    (i, .failed failed e) ∈ before → (∃ s, failed = .sink s) ∧ ∃ s, job = .sink s
  refused : ∀ {i job e}, (i, .repeated job e) ∈ log ∨ (i, .failed job e) ∈ log →
    ∃ construct message retryable, e = .backend construct message retryable

/-- Whether the failures of components that can be planned and whose tasks do not break down are
those of calls that the backend has refused. -/
def Refused (settings : DeploymentSettings) (g : OrchestrationGraph) (channel : String)
    (broken : Nat → Prop) (log : List (Nat × Contact)) (reports : List SubgraphReport) : Prop :=
  ∀ {i c p report e}, (i, c, .ok p) ∈ g.planned channel → settings.breaksDown ≠ some i → ¬broken i →
    reports[i]? = some report → report.status = .failed e →
    ∃ job construct message retryable,
      (i, .failed job (.backend construct message retryable)) ∈ log ∧
        e = .executor job.operation (.backend construct message retryable)

namespace Recorded.Kept

theorem proper_of_mem (kept : s.Kept settings g channel broken) (member : (place, contact) ∈ s.log) :
    ∃ before c p, (place, c, .ok p) ∈ g.planned channel ∧
      contact.Proper (stages c p) (contactsOf before place) := by
  obtain ⟨before, after, split⟩ := List.append_of_mem member
  have first : before ++ [(place, contact)] <+: s.log := ⟨after, by simp [split]⟩
  exact ⟨before, kept.proper first⟩

/-- A call that is made comes next in its phase. -/
theorem due (kept : s.Kept settings g channel broken) (first : before ++ [(place, .issued job)] <+: s.log)
    (listed : (place, c, .ok p) ∈ g.planned channel) : Due c p (doneBy before place) job := by
  obtain ⟨c', p', listed', proper⟩ := kept.proper first
  obtain ⟨rfl, equal⟩ := OrchestrationGraph.planned_functional listed listed'
  cases equal
  obtain ⟨work, progress, follows, inside⟩ := proper.next
  exact follows.due inside

/-- Calls that fail are refused by the backend. -/
theorem backend {e : ExecutorError} (kept : s.Kept settings g channel broken)
    (member : (place, contact) ∈ s.log) (fails : contact = .repeated job e ∨ contact = .failed job e) :
    ∃ construct message retryable, e = .backend construct message retryable := by
  obtain ⟨before, c, p, -, proper⟩ := kept.proper_of_mem member
  exact proper.refused job e fails

theorem disciplined (kept : s.Kept settings g channel broken) : Disciplined g channel s.log where
  planned := by
    intro i contact member
    obtain ⟨before, c, p, listed, -⟩ := kept.proper_of_mem member
    exact ⟨c, p, listed⟩
  due := kept.due
  sinks_first := fun first listed beyond s member =>
    mem_doneBy.mp ((kept.due first listed).sinks beyond s member)
  functions_first := fun first listed n member =>
    mem_doneBy.mp ((kept.due first listed).functions n member)
  ensured := by
    intro before i s first
    obtain ⟨c, p, listed, -⟩ := kept.proper first
    have success := (OrchestrationGraph.mem_planned listed).2.symm
    exact ((kept.due first listed).ensured success).imp_right mem_doneBy.mp
  stopped := by
    intro before i job failed e first failure
    obtain ⟨c, p, -, proper⟩ := kept.proper first
    obtain ⟨stage, staged, crowded, inside, inside'⟩ :=
      proper.held job rfl failed e (mem_contactsOf.mpr failure)
    have sinks := (stages_alone staged).resolve_left crowded
    exact ⟨sinks failed inside, sinks job inside'⟩
  refused := by
    rintro i job e (repeated | failed)
    · exact kept.backend repeated (.inl rfl)
    · exact kept.backend failed (.inr rfl)

/-- Once all tasks are over, failures are accounted for. -/
theorem refused {deploymentId : String} {outcome : DeploymentReport × World}
    (kept : s.Kept settings g channel broken)
    (ended : s.deployment.outcome? settings deploymentId channel = some outcome) :
    Refused settings g channel broken s.log outcome.1.subgraphs := by
  intro i c p report e listed steady unbroken reported failed
  obtain ⟨-, -, reports⟩ := Deployment.outcome?_spec ended
  obtain ⟨r, found, assignment⟩ := Deployment.exists_runner kept.assigned listed
  obtain ⟨status, closed, report'⟩ := reports found
  have blames := (kept.keeps found).blames
  obtain ⟨index, plan, staged, activity⟩ := r
  cases assignment
  subst closed
  cases reported.symm.trans report'
  cases status with
  | none => exact (blames.elim steady unbroken).elim
  | some status =>
    cases failed
    obtain ⟨job, e, member, rfl⟩ := blames.resolve_left nofun
    obtain ⟨construct, message, retryable, rfl⟩ := kept.backend (mem_contactsOf.mp member) (.inr rfl)
    exact ⟨job, construct, message, retryable, mem_contactsOf.mp member, rfl⟩

end Recorded.Kept

/-- Components keep to their phases and want for nothing: sinks come first, then functions, then wiring,
of which the channel comes first, and a call that has failed for good is followed by none of a later
phase or step. So calls fail only where the backend refuses them, and so do components that can be
planned and whose tasks do not break down. This is so for whatever may come upon a deployment, tasks that
break down on the way included, except that the backend is torn down; the program's own schedule is one
of the ways in which it may go. A dry run makes no calls. -/
theorem phases_are_kept (settings : DeploymentSettings) (channel : String) (g : OrchestrationGraph)
    (w : World) :
    (∀ incidents s, .happening (.call .tearDown) ∉ incidents →
      (Recorded.begin settings channel g w).befallAll? settings incidents = some s →
      Disciplined g channel s.log ∧
      ∀ deploymentId outcome, s.deployment.outcome? settings deploymentId channel = some outcome →
        Refused settings g channel (.breakDown · ∈ incidents) s.log outcome.1.subgraphs) ∧
    (∀ deploymentId, ∃ (turns : List Turn) (s : Recorded),
      (Recorded.begin settings channel g w).befallAll? settings ((turns.map .turn).map .happening) =
        some s ∧
      s.deployment.outcome? settings deploymentId channel =
        some ((deploy settings deploymentId false channel g w).1,
          (deploy settings deploymentId false channel g w).2.1)) ∧
    ∀ deploymentId, (deploy settings deploymentId true channel g w).2.1.registry = w.registry := by
  refine ⟨fun incidents s standing befallen => ?_,
    fun deploymentId => Recorded.deploy_turns settings deploymentId channel g w,
    fun deploymentId => (deploy_dryRun settings deploymentId channel g w).2⟩
  have kept := Recorded.Kept.befallAll? befallen standing
  exact ⟨kept.disciplined, fun deploymentId outcome ended => kept.refused ended⟩

/-- The second of two components fails at a function that the backend refuses. -/
theorem phases_are_kept_relays :
    ∃ g incidents s, OrchestrationGraph.relays = some g ∧
      .happening (.call .tearDown) ∉ incidents ∧
      (Recorded.begin {} "done" g { registry := Registry.inject {} "indexer" none }).befallAll? {}
        incidents = some s ∧
      Disciplined g "done" s.log ∧
      ∃ job e, (1, .failed job e) ∈ s.log ∧ e = .backend "indexer" "injected failure" false := by
  obtain ⟨g, plan, relays, -, -, -, planned⟩ := OrchestrationGraph.exists_relays
  have second : (OrchestrationGraph.relays.map fun g =>
      (((g.planned "done")[1]?.map fun part => part.2.2.isOk),
        (deploy {} "first" false "done" g
          { registry := Registry.inject {} "indexer" none }).1.subgraphs[1]?.map (·.status))) =
      some (some true, some (.failed (.executor "register function"
        (.backend "indexer" "injected failure" false)))) := by decide +kernel
  rw [relays, Option.map_some, Option.some_inj, Prod.mk.injEq] at second
  obtain ⟨plannable, status⟩ := second
  obtain ⟨⟨i, c, result⟩, here, success⟩ := Option.map_eq_some_iff.mp plannable
  obtain ⟨report, reported, failed⟩ := Option.map_eq_some_iff.mp status
  cases OrchestrationGraph.index_of_getElem?_planned here
  cases result with
  | error e => cases success
  | ok p =>
    obtain ⟨kept, deploys, -⟩ :=
      phases_are_kept {} "done" g { registry := Registry.inject {} "indexer" none }
    obtain ⟨turns, s, recorded, ended⟩ := deploys "first"
    have standing : .happening (.call .tearDown) ∉ (turns.map .turn).map Incident.happening := by simp
    obtain ⟨disciplined, accounted⟩ := kept _ s standing recorded
    obtain ⟨job, construct, message, retryable, member, equal⟩ :=
      accounted "first" _ ended (List.mem_of_getElem? here) nofun (by simp) reported failed
    have refusal := (OrchestrationError.executor.inj equal).2
    exact ⟨g, _, s, relays, standing, recorded, disciplined, job, _, member, refusal.symm⟩

/-- Whether a failure that is reported is that of a call which the backend has refused. -/
def SubgraphReport.OfBackend (report : SubgraphReport) : Prop :=
  ∀ e, report.status = .failed e →
    ∃ operation construct message retryable,
      e = .executor operation (.backend construct message retryable)

theorem SubgraphReport.not_ofBackend {report : SubgraphReport} {e : OrchestrationError}
    (failed : report.status = .failed e) (other : ∀ operation source, e ≠ .executor operation source) :
    ¬ report.OfBackend := by
  intro backend
  obtain ⟨operation, construct, message, retryable, same⟩ := backend e failed
  exact other _ _ same

/-- Components fail without a call when they cannot be planned, and when their tasks break down. -/
theorem failures_without_calls :
    (∃ report ∈ (deploy {} "first" false "done" OrchestrationGraph.looped
      { registry := {} }).1.subgraphs, ¬ report.OfBackend) ∧
    ∃ g, OrchestrationGraph.relays = some g ∧
      ∃ report ∈ (deploy { breaksDown := some 0 } "first" false "done" g
        { registry := {} }).1.subgraphs, ¬ report.OfBackend := by
  have conflict : (deploy {} "first" false "done" OrchestrationGraph.looped
      { registry := {} }).1.subgraphs[0]?.map (·.status) =
        some (.failed (.wiringConflict 0 (.loop "c"))) := by decide +kernel
  have broken : (OrchestrationGraph.relays.map fun g => (deploy { breaksDown := some 0 } "first" false
      "done" g { registry := {} }).1.subgraphs[0]?.map (·.status)) =
        some (some (.failed .task)) := by decide +kernel
  obtain ⟨g, plan, relays, -⟩ := OrchestrationGraph.exists_relays
  rw [relays, Option.map_some, Option.some_inj] at broken
  obtain ⟨report, reported, failed⟩ := Option.map_eq_some_iff.mp conflict
  obtain ⟨report', reported', failed'⟩ := Option.map_eq_some_iff.mp broken
  exact ⟨⟨report, List.mem_of_getElem? reported, SubgraphReport.not_ofBackend failed nofun⟩,
    g, relays, report', List.mem_of_getElem? reported', SubgraphReport.not_ofBackend failed' nofun⟩

end RestWiring

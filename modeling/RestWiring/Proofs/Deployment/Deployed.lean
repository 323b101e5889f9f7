import RestWiring.Proofs.Deployment.PlannedJobs
import RestWiring.Proofs.Deployment.Tolerance

/-!
# How deployments end

Once all turns are taken, there is a report on every component. A component that can be planned and
bears the failures that strike it is deployed and has done all its jobs. On a graph that can be planned,
a backend without failures that last and with nobody who cancels, these are all components.
-/
namespace RestWiring

variable {settings : DeploymentSettings} {retry : RetryPolicy} {channel deploymentId : String}
  {g c : OrchestrationGraph} {plan : DeploymentPlan} {p : SubgraphPlan} {w : World}
  {d : Deployment} {job : Job} {index : Nat} {outcome : DeploymentReport × World}
  {turns : List Turn} {trace : List (Nat × Job)}

/-- What is reported on a component whose task is over. -/
def EndedTask.report (t : EndedTask) : SubgraphReport :=
  ⟨t.index, t.plan, t.status.getD (.failed .task)⟩

/-- Every task that is over is reported on; what is recorded on the way leaves the backend alone. -/
theorem conclude_spec (settings : DeploymentSettings) (ended : List EndedTask) (w : World) :
    (conclude settings ended w).1 = ended.map EndedTask.report ∧
      (conclude settings ended w).2.registry = w.registry := by
  induction ended generalizing w with
  | nil => exact ⟨rfl, rfl⟩
  | cons t rest ih =>
    obtain ⟨index, plan, status⟩ := t
    cases status with
    | some status =>
      obtain ⟨reports, registry⟩ := ih w
      simp only [conclude, List.map_cons, reports]
      exact ⟨rfl, registry⟩
    | none =>
      obtain ⟨reports, registry⟩ := ih (w.record settings (.subgraphFailed index .task))
      simp only [conclude, List.map_cons, reports]
      exact ⟨rfl, registry⟩

/-- Whether a job belongs to a component of a graph that can be planned. -/
def PlannedJob (g : OrchestrationGraph) (channel : String) (job : Job) : Prop :=
  ∃ index component p, (index, component, .ok p) ∈ g.planned channel ∧
    job ∈ (stages component p).flatten

/-- What a deployment is given to do for a component. -/
def assignmentOf : Nat × OrchestrationGraph × Except OrchestrationError SubgraphPlan →
    Nat × Option SubgraphPlan × List (List Job)
  | (index, component, .ok p) => (index, some p, stages component p)
  | (index, _, .error _) => (index, none, [])

/-- The stages of all components, in order. One that cannot be planned has none. -/
def OrchestrationGraph.parts (g : OrchestrationGraph) (channel : String) : List (List (List Job)) :=
  (g.planned channel).map fun p => (assignmentOf p).2.2

theorem OrchestrationGraph.parts_of_planned (listed : (index, c, .ok p) ∈ g.planned channel) :
    (g.parts channel)[index]? = some (stages c p) := by
  rw [parts, List.getElem?_map, getElem?_planned listed]
  rfl

/-- What a component has to do is what its plan says, or nothing if there is no plan. -/
theorem OrchestrationGraph.getElem?_parts {stages : List (List Job)}
    (found : (g.parts channel)[index]? = some stages) :
    stages = [] ∨ ∃ c p, (index, c, .ok p) ∈ g.planned channel ∧ stages = RestWiring.stages c p := by
  rw [parts, List.getElem?_map] at found
  obtain ⟨⟨i, c, r⟩, listed, rfl⟩ := Option.map_eq_some_iff.mp found
  cases index_of_getElem?_planned listed
  cases r with
  | error e => exact .inl rfl
  | ok p => exact .inr ⟨c, p, List.mem_of_getElem? listed, rfl⟩

theorem OrchestrationGraph.mem_parts :
    (∃ stages ∈ g.parts channel, job ∈ stages.flatten) ↔ PlannedJob g channel job := by
  constructor
  · rintro ⟨stages, listed, inside⟩
    obtain ⟨index, found⟩ := List.getElem?_of_mem listed
    rcases getElem?_parts found with rfl | ⟨c, p, planned, rfl⟩
    · cases inside
    · exact ⟨index, c, p, planned, inside⟩
  · rintro ⟨index, c, p, planned, inside⟩
    exact ⟨_, List.mem_of_getElem? (parts_of_planned planned), inside⟩

/-- Whether a component can be planned, its task does not break down and no injected failure strikes
its calls. -/
structure Untroubled (settings : DeploymentSettings) (g : OrchestrationGraph) (channel : String)
    (registry : Registry) (index : Nat) (c : OrchestrationGraph) (p : SubgraphPlan) : Prop where
  planned : (index, c, .ok p) ∈ g.planned channel
  steady : settings.breaksDown ≠ some index
  spared : ∀ job ∈ (stages c p).flatten, registry.Spares job.call.logged.name

/-- Whether a component can be planned, its task does not break down and its calls bear the failures
that can strike them. -/
structure Tolerable (settings : DeploymentSettings) (g : OrchestrationGraph) (channel : String)
    (registry : Registry) (index : Nat) (c : OrchestrationGraph) (p : SubgraphPlan) : Prop where
  planned : (index, c, .ok p) ∈ g.planned channel
  steady : settings.breaksDown ≠ some index
  bears : ∀ job ∈ (stages c p).flatten,
    Registry.Bears settings.retry.maxAttempts 1 job.call.logged.name registry.failures

theorem Untroubled.tolerable {registry : Registry}
    (untroubled : Untroubled settings g channel registry index c p) :
    Tolerable settings g channel registry index c p where
  planned := untroubled.planned
  steady := untroubled.steady
  bears := fun job inside => .of_spared (untroubled.spared job inside)

namespace Deployment

theorem begin_assignments (settings : DeploymentSettings) (channel : String)
    (g : OrchestrationGraph) (w : World) :
    (begin settings channel g w).runners.map Runner.assignment =
      (g.planned channel).map assignmentOf := by
  rw [begin, List.map_map]
  refine List.map_congr_left fun p _ => ?_
  obtain ⟨index, component, result⟩ := p
  cases result <;> rfl

/-- A component that can be planned has a task, at the place of its number. -/
theorem getElem?_begin_of_planned (settings : DeploymentSettings) (w : World)
    (planned : (index, c, .ok p) ∈ g.planned channel) :
    (Deployment.begin settings channel g w).runners[index]? = some (.ofPlanned index c (.ok p)) := by
  rw [Deployment.begin, List.getElem?_map, OrchestrationGraph.getElem?_planned planned]
  rfl

section Assigned

variable {place : Nat} {r : Runner}
  (assigned : d.runners.map Runner.assignment = (g.planned channel).map assignmentOf)
include assigned

theorem parts_of_assigned : g.parts channel = d.runners.map Runner.stages := by
  have stages := congrArg (List.map fun a : Nat × Option SubgraphPlan × List (List Job) => a.2.2)
    assigned
  rw [List.map_map, List.map_map] at stages
  exact stages.symm

/-- A component has no stages unless it can be planned. -/
theorem stages_of_assigned (found : d.runners[place]? = some r) :
    r.stages = [] ∨ ∃ c p, (place, c, .ok p) ∈ g.planned channel ∧ r.stages = stages c p := by
  refine OrchestrationGraph.getElem?_parts ?_
  rw [parts_of_assigned assigned, List.getElem?_map, found]
  rfl

theorem exists_runner_of_part
    {part : Nat × OrchestrationGraph × Except OrchestrationError SubgraphPlan}
    (listed : (g.planned channel)[place]? = some part) :
    ∃ r, d.runners[place]? = some r ∧ r.assignment = assignmentOf part := by
  have assignment := congrArg (·[place]?) assigned
  simp only [List.getElem?_map, listed] at assignment
  exact Option.map_eq_some_iff.mp assignment

theorem exists_runner (planned : (place, c, .ok p) ∈ g.planned channel) :
    ∃ r, d.runners[place]? = some r ∧ r.assignment = (place, some p, stages c p) :=
  exists_runner_of_part assigned (OrchestrationGraph.getElem?_planned planned)

end Assigned

/-- Components without trouble begin without trouble. -/
theorem Calm.begin (automatic : settings.cancelAfter = none) (running : w.cancelled = false) :
    Calm settings (fun place => ∃ c p, Untroubled settings g channel w.registry place c p)
      (Deployment.begin settings channel g w) where
  running := by simp [Deployment.begin, World.record, automatic, running]
  calm := by
    rintro place r found ⟨c, p, planned, steady, spared⟩
    cases found.symm.trans (getElem?_begin_of_planned settings w planned)
    exact ⟨trivial, stages_supplied (OrchestrationGraph.mem_planned planned).2.symm, steady, spared⟩

theorem Hardy.begin (automatic : settings.cancelAfter = none) (running : w.cancelled = false) :
    Hardy settings (fun place => ∃ c p, Tolerable settings g channel w.registry place c p)
      (Deployment.begin settings channel g w) where
  running := by simp [Deployment.begin, World.record, automatic, running]
  hardy := by
    rintro place r found ⟨c, p, planned, steady, bears⟩
    cases found.symm.trans (getElem?_begin_of_planned settings w planned)
    exact ⟨trivial, stages_supplied (OrchestrationGraph.mem_planned planned).2.symm, steady, bears⟩

/-- What is reported when all tasks are over, and that nothing is done any more. -/
theorem outcome?_spec (ended : d.outcome? settings deploymentId channel = some outcome) :
    outcome.2.registry = d.world.registry ∧ outcome.1.subgraphs.length = d.runners.length ∧
      ∀ {place : Nat} {r : Runner}, d.runners[place]? = some r →
        ∃ status, r.activity = .over status ∧
          outcome.1.subgraphs[place]? = some (EndedTask.report ⟨r.index, r.plan, status⟩) := by
  obtain ⟨tasks, ends, equal⟩ := Option.bind_eq_some_iff.mp ended
  cases equal
  obtain ⟨reports, registry⟩ := conclude_spec settings tasks d.world
  obtain ⟨lengths, each⟩ := List.forall₂_iff_get.mp (mapM_eq_some_iff.mp ends)
  refine ⟨registry, ?_, fun {place r} found => ?_⟩
  · rw [reports, List.length_map, lengths]
  · obtain ⟨inside, rfl⟩ := List.getElem?_eq_some_iff.mp found
    have inside' : place < tasks.length := lengths ▸ inside
    have finished := each place inside inside'
    rw [List.get_eq_getElem, List.get_eq_getElem] at finished
    rw [reports, List.getElem?_map, List.getElem?_eq_getElem inside']
    generalize d.runners[place] = r at finished ⊢
    unfold Runner.ended? at finished
    split at finished
    · rename_i status closed
      exact ⟨status, closed, congrArg (Option.map EndedTask.report) finished.symm⟩
    · cases finished

/-- What no failure could strike before a deployment, none can strike after it. -/
theorem EndsIn.spares {name : String}
    (ends : EndsIn settings deploymentId channel g w turns outcome)
    (automatic : settings.cancelAfter = none) (spares : w.registry.Spares name) :
    outcome.2.registry.Spares name := by
  obtain ⟨d, taken, ended⟩ := ends
  rw [(outcome?_spec ended).1]
  exact takeAll?_spares automatic taken spares

/-- Components keep to their stages, whatever turns are taken. -/
theorem Traces.takes {base : Constructs} (traces : Traces base trace d)
    (assigned : d.runners.map Runner.assignment = (g.planned channel).map assignmentOf) :
    Takes Begins (g.parts channel) trace := by
  rw [parts_of_assigned assigned]
  refine ⟨fun e member => ?_, fun {place stages} found => ?_⟩
  · rw [List.length_map]
    exact traces.placed e member
  · rw [List.getElem?_map] at found
    obtain ⟨r, here, rfl⟩ := Option.map_eq_some_iff.mp found
    exact (traces.follows here).begins

/-- A component that bears its failures is deployed and has done all its jobs, however the others
fare. -/
theorem EndsIn.tolerable (ends : EndsIn settings deploymentId channel g w turns outcome)
    (uncancelled : .cancel ∉ turns) (automatic : settings.cancelAfter = none)
    (running : w.cancelled = false) (named : Named w.registry.constructs) :
    ∃ trace, Takes Begins (g.parts channel) trace ∧
      Replayable w.registry.constructs (trace.map (·.2)) ∧
      outcome.2.registry.constructs = replay w.registry.constructs (trace.map (·.2)) ∧
      ∀ index c p, Tolerable settings g channel w.registry index c p →
        outcome.1.subgraphs[index]? = some ⟨index, some p, .deployed⟩ ∧
          Linearises (stages c p) (jobsOf trace index) := by
  obtain ⟨d, taken, ended⟩ := ends
  obtain ⟨trace, traces, hardy⟩ := (Hardy.begin automatic running).takeAll?
    (Traces.begin settings channel g w) named automatic taken uncancelled
  have assigned := (takeAll?_assignments taken).trans (begin_assignments settings channel g w)
  obtain ⟨registry, -, reports⟩ := outcome?_spec ended
  refine ⟨trace, traces.takes assigned, traces.replayable, ?_, fun index c p tolerable => ?_⟩
  · rw [registry, traces.constructs]
  · obtain ⟨r, found, assignment⟩ := exists_runner assigned tolerable.planned
    obtain ⟨status, closed, report⟩ := reports found
    have ended_well := (hardy.hardy found ⟨c, p, tolerable⟩).hardy
    have follows := traces.follows found
    obtain ⟨i, plan, stages, activity⟩ := r
    cases assignment
    subst closed
    cases ended_well
    exact ⟨report, follows⟩

/-- A component without trouble is deployed and has done all its jobs, however the others fare. -/
theorem EndsIn.untroubled (ends : EndsIn settings deploymentId channel g w turns outcome)
    (uncancelled : .cancel ∉ turns) (automatic : settings.cancelAfter = none)
    (running : w.cancelled = false) (named : Named w.registry.constructs) :
    ∃ trace, Takes Begins (g.parts channel) trace ∧
      Replayable w.registry.constructs (trace.map (·.2)) ∧
      outcome.2.registry.constructs = replay w.registry.constructs (trace.map (·.2)) ∧
      ∀ index c p, Untroubled settings g channel w.registry index c p →
        outcome.1.subgraphs[index]? = some ⟨index, some p, .deployed⟩ ∧
          Linearises (stages c p) (jobsOf trace index) := by
  obtain ⟨trace, takes, replayable, constructs, each⟩ :=
    ends.tolerable uncancelled automatic running named
  exact ⟨trace, takes, replayable, constructs,
    fun index c p untroubled => each index c p untroubled.tolerable⟩

/-- Reports tell the components and their plans, in order, however these have fared. -/
theorem outcome?_places
    (assigned : d.runners.map Runner.assignment = (g.planned channel).map assignmentOf)
    (ended : d.outcome? settings deploymentId channel = some outcome) :
    outcome.1.subgraphs.map (fun r => (r.index, r.plan)) =
      (g.planned channel).map fun p => ((assignmentOf p).1, (assignmentOf p).2.1) := by
  obtain ⟨-, length, reports⟩ := outcome?_spec ended
  have places : outcome.1.subgraphs.map (fun r => (r.index, r.plan)) =
      d.runners.map fun r => (r.index, r.plan) := by
    refine List.ext_getElem? fun place => ?_
    simp only [List.getElem?_map]
    cases found : d.runners[place]? with
    | none =>
      rw [List.getElem?_eq_none_iff] at found
      rw [List.getElem?_eq_none_iff.mpr (length ▸ found)]
      rfl
    | some r =>
      obtain ⟨status, -, report⟩ := reports found
      rw [report]
      rfl
  have given := congrArg
    (List.map fun a : Nat × Option SubgraphPlan × List (List Job) => (a.1, a.2.1)) assigned
  rw [List.map_map, List.map_map] at given
  exact places.trans given

theorem assignmentOf_index (p : Nat × OrchestrationGraph × Except OrchestrationError SubgraphPlan) :
    (assignmentOf p).1 = p.1 := by
  obtain ⟨index, component, result⟩ := p
  cases result <;> rfl

/-- The number of reports, which come in order. -/
theorem EndsIn.indices (ends : EndsIn settings deploymentId channel g w turns outcome) :
    outcome.1.subgraphs.map (·.index) = List.range g.components.length := by
  obtain ⟨d, taken, ended⟩ := ends
  have assigned := (takeAll?_assignments taken).trans (begin_assignments settings channel g w)
  have indices := congrArg (List.map Prod.fst) (outcome?_places assigned ended)
  rw [List.map_map, List.map_map] at indices
  rw [← g.planned_indices channel]
  exact indices.trans (List.map_congr_left fun p _ => assignmentOf_index p)

section Passing

variable (ends : EndsIn { retry } deploymentId channel g w turns outcome)
  (uncancelled : .cancel ∉ turns) (running : w.cancelled = false)
  (bears : ∀ name, Registry.Bears retry.maxAttempts 1 name w.registry.failures)
  (named : Named w.registry.constructs)
include ends uncancelled running bears named

/-- When all failures pass and nobody cancels, all planned components are deployed, and all components
do all their jobs. -/
theorem EndsIn.interleaves_of_bears :
    ∃ trace, Interleaves (g.parts channel) trace ∧
      Replayable w.registry.constructs (trace.map (·.2)) ∧
      outcome.2.registry.constructs = replay w.registry.constructs (trace.map (·.2)) ∧
      ∀ index c p, (index, c, .ok p) ∈ g.planned channel →
        outcome.1.subgraphs[index]? = some ⟨index, some p, .deployed⟩ := by
  obtain ⟨trace, takes, replayable, constructs, each⟩ :=
    ends.tolerable uncancelled rfl running named
  have tolerable {index : Nat} {c : OrchestrationGraph} {p : SubgraphPlan}
      (listed : (index, c, .ok p) ∈ g.planned channel) :
      Tolerable { retry } g channel w.registry index c p :=
    ⟨listed, by simp, fun job _ => bears _⟩
  refine ⟨trace, ⟨takes.placed, fun {place stages} found => ?_⟩, replayable, constructs,
    fun index c p listed => (each index c p (tolerable listed)).1⟩
  rcases OrchestrationGraph.getElem?_parts found with rfl | ⟨c, p, listed, rfl⟩
  · have nothing := takes.each found
    generalize jobsOf trace place = done at nothing ⊢
    cases nothing
    exact .nil
  · exact (each place c p (tolerable listed)).2

/-- On a graph that can be planned all components are reported as deployed. -/
theorem EndsIn.deployed_of_bears (planned : g.plan channel = .ok plan) :
    outcome.1.subgraphs = plan.subgraphs.map (fun p => ⟨p.index, some p, .deployed⟩) := by
  obtain ⟨-, -, -, -, deployed⟩ := ends.interleaves_of_bears uncancelled running bears named
  obtain ⟨-, related⟩ := OrchestrationGraph.plan_success_iff.mp planned
  rw [← OrchestrationGraph.map_planned planned
    (f := fun p => ⟨(assignmentOf p).1, (assignmentOf p).2.1, .deployed⟩) fun _ _ => rfl]
  have length := congrArg List.length (ends.indices.trans (g.planned_indices channel).symm)
  simp only [List.length_map] at length
  refine List.ext_getElem? fun place => ?_
  rw [List.getElem?_map]
  cases found : (g.planned channel)[place]? with
  | none =>
    rw [List.getElem?_eq_none_iff] at found
    rw [List.getElem?_eq_none_iff.mpr (length ▸ found)]
    rfl
  | some part =>
    have listed := List.mem_of_getElem? found
    obtain ⟨p, -, success⟩ := exists_of_mem_left related listed
    obtain ⟨i, c, result⟩ := part
    cases success
    cases OrchestrationGraph.index_of_getElem?_planned found
    exact deployed _ c p listed

end Passing

section Quiet

variable (ends : EndsIn { retry } deploymentId channel g w turns outcome)
  (uncancelled : .cancel ∉ turns) (running : w.cancelled = false) (quiet : w.registry.Quiet)
  (named : Named w.registry.constructs)
include ends uncancelled running quiet named

/-- With no failure to strike and nobody who cancels, all planned components are deployed, and all
components do all their jobs. -/
theorem EndsIn.interleaves :
    ∃ trace, Interleaves (g.parts channel) trace ∧
      Replayable w.registry.constructs (trace.map (·.2)) ∧
      outcome.2.registry.constructs = replay w.registry.constructs (trace.map (·.2)) ∧
      ∀ index c p, (index, c, .ok p) ∈ g.planned channel →
        outcome.1.subgraphs[index]? = some ⟨index, some p, .deployed⟩ :=
  ends.interleaves_of_bears uncancelled running (fun name => .of_spared (quiet.spares name)) named

/-- On a graph that can be planned all components are reported as deployed. -/
theorem EndsIn.deployed (planned : g.plan channel = .ok plan) :
    outcome.1.subgraphs = plan.subgraphs.map (fun p => ⟨p.index, some p, .deployed⟩) :=
  ends.deployed_of_bears uncancelled running (fun name => .of_spared (quiet.spares name)) named planned

end Quiet

/-- A deployment on an empty backend ends with every component deployed, and the backend holds what
the planned jobs amount to. -/
theorem EndsIn.calm (ends : EndsIn { retry } deploymentId channel g w turns outcome)
    (planned : g.plan channel = .ok plan)
    (running : w.cancelled = false) (unharmed : w.registry.failures = [])
    (empty : w.registry.constructs = ∅) (uncancelled : .cancel ∉ turns) :
    outcome.1.subgraphs = plan.subgraphs.map (fun p => ⟨p.index, some p, .deployed⟩) ∧
      ∃ done, (∀ job, job ∈ done ↔ PlannedJob g channel job) ∧
        Realises done outcome.2.registry.constructs := by
  have quiet : w.registry.Quiet := by simp [Registry.Quiet, unharmed]
  have named : Named w.registry.constructs := empty ▸ Named.empty
  refine ⟨ends.deployed uncancelled running quiet named planned, ?_⟩
  obtain ⟨trace, interleaves, replayable, constructs, -⟩ :=
    ends.interleaves uncancelled running quiet named
  rw [empty] at replayable constructs
  refine ⟨trace.map (·.2), fun job => ?_, constructs ▸ replayable.realises⟩
  rw [interleaves.mem_iff, OrchestrationGraph.mem_parts]

end Deployment

end RestWiring

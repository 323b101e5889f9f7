import RestWiring.Deployment.Cascade

/-!
# Deployments

Every component that can be planned is deployed by a task of its own. Tasks share the backend, and one
that fails leaves the others alone. `deploy` runs the tasks in one particular order: each until it is
done or has to wait, then the one that is due first, while the clock jumps from one due time to the
next.
-/
namespace RestWiring

/-- A task under way. -/
structure Task where
  index : Nat
  plan : SubgraphPlan
  cascade : Cascade

/-- A task that is over; no plan means that there was none to run, no status that the task broke down. -/
structure EndedTask where
  index : Nat
  plan : Option SubgraphPlan
  status : Option SubgraphStatus

namespace Task

/-- Records how a cascade ended. -/
def finish (settings : DeploymentSettings) (index : Nat) (plan : SubgraphPlan) (status : SubgraphStatus)
    (w : World) : EndedTask × World :=
  (⟨index, some plan, some status⟩, w.record settings (.ofStatus index status))

def statusOf : OrchestrationError → SubgraphStatus
  | .cancelled => .cancelled
  | e => .failed e

/-- Goes on with a task until it has to wait or is over. -/
def proceed (settings : DeploymentSettings) (time : Nat) (t : Task) (w : World) :
    (Task ⊕ EndedTask) × World :=
  match Cascade.proceed settings time t.cascade.current t.cascade.later w with
  | (.ok cascade, w) =>
    if cascade.isDone then
      let (ended, w) := finish settings t.index t.plan .deployed w
      (.inr ended, w)
    else (.inl { t with cascade }, w)
  | (.error e, w) =>
    let (ended, w) := finish settings t.index t.plan (statusOf e) w
    (.inr ended, w)

/-- Starts a task, and goes on until it has to wait or is over. -/
def start (settings : DeploymentSettings) (index : Nat) (g : OrchestrationGraph) (plan : SubgraphPlan)
    (w : World) : (Task ⊕ EndedTask) × World :=
  if settings.breaksDown = some index then (.inr ⟨index, some plan, none⟩, w)
  else
    let w := w.record settings (.subgraphStarted index)
    proceed settings 0 ⟨index, plan, ⟨.ofJobs [], stages g plan⟩⟩ w

end Task

/-- Tasks in the order in which they began to wait, tasks that are over, what they share, and the time. -/
structure Schedule where
  waiting : List Task := []
  ended : List EndedTask := []
  world : World
  time : Nat := 0

namespace Schedule

/-- Takes in what became of a task. -/
def add (s : Schedule) : (Task ⊕ EndedTask) × World → Schedule
  | (.inl task, world) => { s with waiting := s.waiting ++ [task], world }
  | (.inr ended, world) => { s with ended := s.ended ++ [ended], world }

/-- The task that is due first, of several the one that has waited longest, and the others. -/
def due : List Task → Option (Task × List Task)
  | [] => none
  | t :: ts =>
    match due ts with
    | none => some (t, [])
    | some (u, rest) => if u.cascade.wake < t.cascade.wake then some (u, t :: rest) else some (t, ts)

/-- Ends all waiting tasks of a deployment that has been cancelled. -/
def abandon (settings : DeploymentSettings) (s : Schedule) : Schedule :=
  s.waiting.foldl
    (fun s t =>
      let (ended, w) := Task.finish settings t.index t.plan .cancelled s.world
      s.add (.inr ended, w))
    { s with waiting := [] }

/-- Goes on until no task is left. Every round makes an attempt, so the number of attempts that the
jobs have bounds the rounds. -/
def run (settings : DeploymentSettings) : Nat → Schedule → Schedule
  | 0, s => s
  | fuel + 1, s =>
    if s.world.cancelled then s.abandon settings
    else
      match due s.waiting with
      | none => s
      | some (task, rest) =>
        let time := Nat.max s.time task.cascade.wake
        run settings fuel (add { s with waiting := rest, time } (task.proceed settings time s.world))

end Schedule

/-- What is known of a component before its task runs. -/
structure Prospect where
  index : Nat
  component : OrchestrationGraph
  plan : SubgraphPlan

/-- Sorts components into reports that are final already and tasks to run. -/
def prospects (settings : DeploymentSettings) (dryRun : Bool) :
    List (Nat × OrchestrationGraph × Except OrchestrationError SubgraphPlan) → World →
      List SubgraphReport × List Prospect × World
  | [], w => ([], [], w)
  | (index, _, .error e) :: rest, w =>
    let (reports, tasks, w) := prospects settings dryRun rest (w.record settings (.subgraphFailed index e))
    (⟨index, none, .failed e⟩ :: reports, tasks, w)
  | (index, component, .ok plan) :: rest, w =>
    let (reports, tasks, w) := prospects settings dryRun rest w
    if dryRun then (⟨index, some plan, .planned⟩ :: reports, tasks, w)
    else (reports, ⟨index, component, plan⟩ :: tasks, w)

/-- Reports on tasks that are over; those that broke down are recorded as failed. -/
def conclude (settings : DeploymentSettings) : List EndedTask → World → List SubgraphReport × World
  | [], w => ([], w)
  | t :: rest, w =>
    match t.status with
    | some status =>
      let (reports, w) := conclude settings rest w
      (⟨t.index, t.plan, status⟩ :: reports, w)
    | none =>
      let (reports, w) := conclude settings rest (w.record settings (.subgraphFailed t.index .task))
      (⟨t.index, t.plan, .failed .task⟩ :: reports, w)

/-- Puts a report in front of those with a greater index. -/
def insertReport (r : SubgraphReport) : List SubgraphReport → List SubgraphReport
  | [] => [r]
  | q :: rest => if r.index ≤ q.index then r :: q :: rest else q :: insertReport r rest

def insertEnded (t : EndedTask) : List EndedTask → List EndedTask
  | [] => [t]
  | q :: rest => if t.index ≤ q.index then t :: q :: rest else q :: insertEnded t rest

/-- How many rounds a schedule may take. -/
def roundLimit (retry : RetryPolicy) (tasks : List Prospect) : Nat :=
  ((tasks.flatMap fun p => (stages p.component p.plan).flatten).length + 1) * (retry.maxAttempts + 1)

/-- Deploys a graph; answers the report, what the deployment leaves behind, and the time it took. -/
def deploy (settings : DeploymentSettings) (deploymentId : String) (dryRun : Bool) (channel : String)
    (g : OrchestrationGraph) (w : World) : DeploymentReport × World × Nat :=
  let planned := g.planned channel
  let w := w.record settings (.deploymentStarted planned.length dryRun)
  let (early, tasks, w) := prospects settings dryRun planned w
  let begun := tasks.foldl
    (fun (s : Schedule) p => s.add (Task.start settings p.index p.component p.plan s.world))
    { world := w }
  let done := begun.run settings (roundLimit settings.retry tasks)
  let (late, w) := conclude settings (done.ended.foldr insertEnded []) done.world
  let report : DeploymentReport :=
    { deploymentId, dryRun, channel, subgraphs := (early ++ late).foldr insertReport [] }
  let w := w.record settings (.deploymentCompleted report.unfinished.length)
  (report, w, done.time)

end RestWiring

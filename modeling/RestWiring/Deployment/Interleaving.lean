import RestWiring.Deployment.Deploy

/-!
# Interleaved deployments

Tasks run side by side: a task goes through its own stages in order, but nothing orders it against
the others, and a deployment may be cancelled at any time. Here a deployment goes on by single
turns, and every list of turns that can be taken one after another is a way in which it may go. A call
takes two turns, since it may already be on its way when the deployment is cancelled.
-/
namespace RestWiring

/-- How far a job has come: an attempt that has yet to be made, one whose call is on its way, or a
failure that is held back until the jobs in front are done. -/
inductive JobProgress where
  | ready (attempt : Nat)
  | underway (attempt : Nat)
  | failed (error : OrchestrationError)
  deriving DecidableEq, Repr

/-- What a task has to do: the jobs that its stage has left, whether their failures are held back, and
the stages to come. -/
structure Work where
  orderly : Bool
  current : List (Job × JobProgress)
  later : List (List Job)

inductive Activity where
  | fresh
  | working (work : Work)
  /-- A job is done, and its event comes before anything else. -/
  | announcing (event : DeploymentEvent) (work : Work)
  | closing (status : SubgraphStatus)
  /-- No status means that the task broke down. -/
  | over (status : Option SubgraphStatus)

/-- What a task does in one turn; jobs are named by their place in the stage. -/
inductive TaskTurn where
  | start
  | issue (place : Nat)
  | complete (place : Nat)
  | announce
  | advance
  | close
  deriving DecidableEq, Repr

namespace Activity

/-- Goes on with work, unless a failure in front of it ends it. -/
def ofWork (work : Work) : Activity :=
  match work.current with
  | (_, .failed e) :: _ => .closing (Task.statusOf e)
  | _ => .working work

/-- Takes in the failure of a job. -/
def fail (place : Nat) (job : Job) (e : OrchestrationError) (work : Work) : Activity :=
  if work.orderly then ofWork { work with current := work.current.set place (job, .failed e) }
  else .closing (Task.statusOf e)

/-- Sends the call of a job on its way; a job that sees that the deployment is cancelled fails. -/
def issue? (place : Nat) (work : Work) (w : World) : Option (Activity × World) :=
  match work.current[place]? with
  | some (job, .ready attempt) =>
    if w.cancelled then some (fail place job .cancelled work, w)
    else some (.working { work with current := work.current.set place (job, .underway attempt) }, w)
  | _ => none

/-- Lets a call reach the backend, and takes in its answer. -/
def complete? (settings : DeploymentSettings) (place : Nat) (work : Work) (w : World) :
    Option (Activity × World) :=
  match work.current[place]? with
  | some (job, .underway attempt) =>
    match job.perform w.registry with
    | (.ok answer, registry) =>
      let work := { work with current := work.current.eraseIdx place }
      match job.event? answer with
      | some e => some (.announcing e work, { w with registry })
      | none => some (ofWork work, { w with registry })
    | (.error e, registry) =>
      if settings.retry.repeats attempt e then
        let current := work.current.set place (job, .ready (attempt + 1))
        some (.working { work with current }, { w with registry })
      else some (fail place job (.executor job.operation e) work, { w with registry })
  | _ => none

/-- Enters the next stage when the current one is done; after the last, all is deployed. -/
def advance? : Work → Option Activity
  | ⟨_, [], stage :: later⟩ =>
    some (.working ⟨Stage.crowd < stage.length, stage.map fun job => (job, .ready 1), later⟩)
  | ⟨_, [], []⟩ => some (.closing .deployed)
  | _ => none

/-- Takes a turn, if it can be taken. -/
def take? (settings : DeploymentSettings) (index : Nat) (stages : List (List Job)) (turn : TaskTurn)
    (activity : Activity) (w : World) : Option (Activity × World) :=
  match turn, activity with
  | .start, .fresh =>
    if settings.breaksDown = some index then some (.over none, w)
    else some (.working ⟨false, [], stages⟩, w.record settings (.subgraphStarted index))
  | .issue place, .working work => issue? place work w
  | .complete place, .working work => complete? settings place work w
  | .announce, .announcing e work => some (ofWork work, w.record settings e)
  | .advance, .working work => (advance? work).map fun activity => (activity, w)
  | .close, .closing status => some (.over (some status), w.record settings (.ofStatus index status))
  | _, _ => none

end Activity

/-- A component in a deployment. One that cannot be planned has no stages and is about to fail. -/
structure Runner where
  index : Nat
  plan : Option SubgraphPlan
  stages : List (List Job)
  activity : Activity

namespace Runner

def ofPlanned (index : Nat) (component : OrchestrationGraph) :
    Except OrchestrationError SubgraphPlan → Runner
  | .ok plan => ⟨index, some plan, RestWiring.stages component plan, .fresh⟩
  | .error e => ⟨index, none, [], .closing (.failed e)⟩

def take? (settings : DeploymentSettings) (turn : TaskTurn) (r : Runner) (w : World) :
    Option (Runner × World) :=
  (r.activity.take? settings r.index r.stages turn w).map fun (activity, w) => ({ r with activity }, w)

def ended? (r : Runner) : Option EndedTask :=
  match r.activity with
  | .over status => some ⟨r.index, r.plan, status⟩
  | _ => none

end Runner

inductive Turn where
  | cancel
  | task (place : Nat) (turn : TaskTurn)
  deriving DecidableEq, Repr

/-- A deployment between two turns. -/
structure Deployment where
  runners : List Runner
  world : World

namespace Deployment

/-- A deployment that has announced itself and has done nothing else. -/
def begin (settings : DeploymentSettings) (channel : String) (g : OrchestrationGraph) (w : World) :
    Deployment :=
  let planned := g.planned channel
  { runners := planned.map fun (index, component, plan) => .ofPlanned index component plan
    world := w.record settings (.deploymentStarted planned.length false) }

def take? (settings : DeploymentSettings) (d : Deployment) : Turn → Option Deployment
  | .cancel => some { d with world := { d.world with cancelled := true } }
  | .task place turn => do
    let runner ← d.runners[place]?
    let (runner, world) ← runner.take? settings turn d.world
    return { runners := d.runners.set place runner, world }

/-- Takes turns one after another. -/
def takeAll? (settings : DeploymentSettings) : List Turn → Deployment → Option Deployment
  | [], d => some d
  | turn :: turns, d => (d.take? settings turn).bind (takeAll? settings turns)

/-- The report and what is left behind once every task is over. -/
def outcome? (settings : DeploymentSettings) (deploymentId channel : String) (d : Deployment) :
    Option (DeploymentReport × World) := do
  let ended ← d.runners.mapM Runner.ended?
  let (subgraphs, w) := conclude settings ended d.world
  let report : DeploymentReport := { deploymentId, dryRun := false, channel, subgraphs }
  return (report, w.record settings (.deploymentCompleted report.unfinished.length))

/-- Whether these turns take a deployment to its end, with this outcome. -/
def EndsIn (settings : DeploymentSettings) (deploymentId channel : String) (g : OrchestrationGraph)
    (w : World) (turns : List Turn) (outcome : DeploymentReport × World) : Prop :=
  ∃ d, takeAll? settings turns (begin settings channel g w) = some d ∧
    outcome? settings deploymentId channel d = some outcome

end Deployment

end RestWiring

import RestWiring.Deployment.Event
import RestWiring.Deployment.Retry

/-!
# Cascades

A cascade deploys one component in stages: all its sinks, then its functions one by one, then the
wiring steps one by one. The jobs of a stage are attempted side by side; a stage begins when the one
before it is done, and a job that fails for good ends the cascade. In a stage of up to thirty jobs it does
so at once; in a longer one failures count in the order of the list, so that one is held back until all
jobs in front of it are done. Every attempt first looks whether the deployment has been cancelled.
-/
namespace RestWiring

inductive Job where
  | sink (sink : SinkPlan)
  | function (function : FunctionDeployment)
  | step (step : WiringStep)

namespace Job

/-- The backend call of a job. -/
def call : Job → Call
  | .sink ⟨.topic, spec⟩ => Call.createTopic spec.name {}
  | .sink ⟨kind, spec⟩ => Call.createStorage kind.construct spec
  | .function f => Call.createFunction f
  | .step (.ensureChannel channel) => .getOrCreate channel {}
  | .step (.grantPublish channel uid) => .grantPublish channel uid
  | .step (.notify uid channel params) => .notify uid channel params
  | .step (.subscribe uid trigger) => .trigger uid trigger

/-- What messages call a job. -/
def operation : Job → String
  | .sink _ => "register sink"
  | .function _ => "register function"
  | .step (.ensureChannel _) => "ensure channel"
  | .step (.grantPublish ..) => "grant publish"
  | .step (.notify ..) => "notify"
  | .step (.subscribe ..) => "subscribe"

/-- Performs the call of a job; a sink or a function that is already there is as good as a new one. -/
def perform (job : Job) (r : Registry) : Except ExecutorError Answer × Registry :=
  match job with
  | .sink _ | .function _ => r.register job.call
  | .step _ => r.perform job.call

/-- The event that a job which is done gives rise to. -/
def event? (job : Job) (answer : Answer) : Option DeploymentEvent :=
  match job, answer with
  | .sink s, .registered registration => some (.constructRegistered s.kind.construct s.spec.name registration)
  | .function f, .registered registration => some (.constructRegistered .function f.uid registration)
  | .step (.ensureChannel channel), .registered registration =>
    some (.constructRegistered .topic channel registration)
  | .step (.subscribe uid trigger), _ =>
    some (.edgeWired ((trigger.args.find? SubgraphPlan.sourceAttribute).getD "") uid)
  | _, _ => none

end Job

/-- The stages of a component: jobs side by side, stages one after another. -/
def stages (g : OrchestrationGraph) (plan : SubgraphPlan) : List (List Job) :=
  (plan.sinks.map Job.sink :: g.nodes.values.map (fun n => [Job.function n.deployment]) ++
    plan.steps.map (fun s => [Job.step s])).filter (!·.isEmpty)

/-- How a deployment runs. -/
structure DeploymentSettings where
  retry : RetryPolicy := {}
  /-- The deployment is cancelled as soon as so many events have been recorded. -/
  cancelAfter : Option Nat := none
  /-- The task of this component breaks down when it reports its start. -/
  breaksDown : Option Nat := none

/-- What all tasks of a deployment share. -/
structure World where
  registry : Registry
  events : List DeploymentEvent := []
  cancelled : Bool := false

/-- Records an event, and cancels the deployment if it is the one to do so after. -/
def World.record (w : World) (settings : DeploymentSettings) (e : DeploymentEvent) : World :=
  let events := w.events ++ [e]
  { w with events, cancelled := w.cancelled || settings.cancelAfter == some events.length }

/-- A job that waits, the number of its next attempt, and the time before which that attempt is not
made. -/
structure Attempt where
  job : Job
  number : Nat := 1
  wake : Nat := 0

/-- What a job that is not done has come to. -/
inductive Unfinished where
  | waiting (next : Attempt)
  | failed (error : OrchestrationError)

namespace Attempt

/-- Makes one attempt; answers what is left of the job. -/
def once (settings : DeploymentSettings) (now : Nat) (a : Attempt) (w : World) : Option Unfinished × World :=
  if w.cancelled then (some (.failed .cancelled), w)
  else
    match a.job.perform w.registry with
    | (.ok answer, registry) =>
      let w := { w with registry }
      match a.job.event? answer with
      | some e => (none, w.record settings e)
      | none => (none, w)
    | (.error e, registry) =>
      let w := { w with registry }
      if settings.retry.repeats a.number e then
        let wake := now + settings.retry.wait a.number
        (some (.waiting { a with number := a.number + 1, wake }), w)
      else (some (.failed (.executor a.job.operation e)), w)

/-- Makes attempts until the job is done, has failed or has to wait: a delay of zero is no wait. -/
def now (settings : DeploymentSettings) (time : Nat) : Nat → Attempt → World → Option Unfinished × World
  | 0, a, w => a.once settings time w
  | fuel + 1, a, w =>
    match a.once settings time w with
    | (some (.waiting next), w) =>
      if next.wake ≤ time then Attempt.now settings time fuel next w else (some (.waiting next), w)
    | result => result

end Attempt

/-- What is left of a stage, in order. -/
structure Stage where
  /-- Whether a failure is held back until the jobs in front of it are done. -/
  orderly : Bool
  unfinished : List Unfinished

namespace Stage

/-- The greatest number of jobs of which the first to fail ends a stage at once. -/
def crowd : Nat := 30

def ofJobs (jobs : List Job) : Stage :=
  ⟨crowd < jobs.length, jobs.map fun job => .waiting { job }⟩

/-- Takes a job that is not done into what is left of the jobs behind it. -/
def keep (job : Unfinished) :
    Except OrchestrationError (List Unfinished) × World → Except OrchestrationError (List Unfinished) × World
  | (.ok rest, w) => (.ok (job :: rest), w)
  | failure => failure

/-- Makes the attempts whose time has come, in order, up to a failure that ends the stage. `first` tells
whether all jobs in front are done. -/
def attemptAll (settings : DeploymentSettings) (time : Nat) (orderly : Bool) :
    Bool → List Unfinished → World → Except OrchestrationError (List Unfinished) × World
  | _, [], w => (.ok [], w)
  | first, .failed e :: rest, w =>
    if first then (.error e, w) else keep (.failed e) (attemptAll settings time orderly false rest w)
  | first, .waiting a :: rest, w =>
    if time < a.wake then keep (.waiting a) (attemptAll settings time orderly false rest w)
    else
      match a.now settings time settings.retry.maxAttempts w with
      | (none, w) => attemptAll settings time orderly first rest w
      | (some (.waiting next), w) => keep (.waiting next) (attemptAll settings time orderly false rest w)
      | (some (.failed e), w) =>
        if first || !orderly then (.error e, w)
        else keep (.failed e) (attemptAll settings time orderly false rest w)

/-- Makes the attempts whose time has come. -/
def attempt (settings : DeploymentSettings) (time : Nat) (s : Stage) (w : World) :
    Except OrchestrationError Stage × World :=
  match attemptAll settings time s.orderly true s.unfinished w with
  | (.ok unfinished, w) => (.ok { s with unfinished }, w)
  | (.error e, w) => (.error e, w)

def isDone (s : Stage) : Bool := s.unfinished.isEmpty

end Stage

/-- A cascade under way: what is left of its stage, and the stages to come. -/
structure Cascade where
  current : Stage
  later : List (List Job)

namespace Cascade

def isDone (c : Cascade) : Bool := c.current.isDone && c.later.isEmpty

/-- Goes on until every attempt of a stage has to wait, or all is done. -/
def proceed (settings : DeploymentSettings) (time : Nat) (current : Stage) :
    List (List Job) → World → Except OrchestrationError Cascade × World
  | [], w =>
    match current.attempt settings time w with
    | (.ok current, w) => (.ok ⟨current, []⟩, w)
    | (.error e, w) => (.error e, w)
  | stage :: later, w =>
    match current.attempt settings time w with
    | (.ok current, w) =>
      if current.isDone then proceed settings time (.ofJobs stage) later w
      else (.ok ⟨current, stage :: later⟩, w)
    | (.error e, w) => (.error e, w)

/-- When the next attempt is due. -/
def wake (c : Cascade) : Nat :=
  let times := c.current.unfinished.filterMap fun
    | .waiting next => some next.wake
    | .failed _ => none
  match times with
  | [] => 0
  | t :: ts => ts.foldl Nat.min t

end Cascade

end RestWiring

import RestWiring.Deployment.Interleaving

/-!
# What a turn can do

A turn of a task puts a call on its way, takes in the answer of one, or makes no call. `Activity.Step`
lists all that can happen in a turn, so that what every turn preserves is shown by one case for each.
-/
namespace RestWiring

/-- What passes between a task and the backend: a call for a job is on its way, or has been answered.
A call that fails is repeated, or the job fails for good. -/
inductive Contact where
  | issued (job : Job)
  | succeeded (job : Job)
  | repeated (job : Job) (error : ExecutorError)
  | failed (job : Job) (error : ExecutorError)

def Contact.job : Contact → Job
  | .issued job | .succeeded job | .repeated job _ | .failed job _ => job

/-- The job that has been done. -/
def Contact.success? : Contact → Option Job
  | .succeeded job => some job
  | _ => none

namespace Activity

/-- What passes between a task and the backend in a turn. -/
def contact? (settings : DeploymentSettings) (turn : TaskTurn) (activity : Activity) (w : World) :
    Option Contact :=
  match turn, activity with
  | .issue place, .working work =>
    match work.current[place]? with
    | some (job, .ready _) => if w.cancelled then none else some (.issued job)
    | _ => none
  | .complete place, .working work =>
    match work.current[place]? with
    | some (job, .underway attempt) =>
      match (job.perform w.registry).1 with
      | .ok _ => some (.succeeded job)
      | .error e =>
        if settings.retry.repeats attempt e then some (.repeated job e) else some (.failed job e)
    | _ => none
  | _, _ => none

/-- What a task goes on with when a job is done: its event, if it has one, comes first. -/
def settle (event : Option DeploymentEvent) (work : Work) : Activity :=
  match event with
  | some e => .announcing e work
  | none => ofWork work

/-- The turns of a task, with what passes between the task and the backend. -/
inductive Step (settings : DeploymentSettings) (index : Nat) (stages : List (List Job)) :
    Activity → World → Option Contact → Activity → World → Prop
  | breakDown {w : World} (broken : settings.breaksDown = some index) :
      Step settings index stages .fresh w none (.over none) w
  | start {w : World} (steady : settings.breaksDown ≠ some index) :
      Step settings index stages .fresh w none (.working ⟨false, [], stages⟩)
        (w.record settings (.subgraphStarted index))
  | withhold {work : Work} {w : World} {place attempt : Nat} {job : Job}
      (listed : work.current[place]? = some (job, .ready attempt)) (cancelled : w.cancelled = true) :
      Step settings index stages (.working work) w none (fail place job .cancelled work) w
  | issue {work : Work} {w : World} {place attempt : Nat} {job : Job}
      (listed : work.current[place]? = some (job, .ready attempt)) (running : w.cancelled = false) :
      Step settings index stages (.working work) w (some (.issued job))
        (.working { work with current := work.current.set place (job, .underway attempt) }) w
  | succeed {work : Work} {w : World} {place attempt : Nat} {job : Job} {answer : Answer}
      {registry : Registry} (listed : work.current[place]? = some (job, .underway attempt))
      (performed : job.perform w.registry = (.ok answer, registry)) :
      Step settings index stages (.working work) w (some (.succeeded job))
        (settle (job.event? answer) { work with current := work.current.eraseIdx place })
        { w with registry }
  | again {work : Work} {w : World} {place attempt : Nat} {job : Job} {e : ExecutorError}
      {registry : Registry} (listed : work.current[place]? = some (job, .underway attempt))
      (performed : job.perform w.registry = (.error e, registry))
      (repeated : settings.retry.repeats attempt e = true) :
      Step settings index stages (.working work) w (some (.repeated job e))
        (.working { work with current := work.current.set place (job, .ready (attempt + 1)) })
        { w with registry }
  | giveUp {work : Work} {w : World} {place attempt : Nat} {job : Job} {e : ExecutorError}
      {registry : Registry} (listed : work.current[place]? = some (job, .underway attempt))
      (performed : job.perform w.registry = (.error e, registry))
      (final : settings.retry.repeats attempt e = false) :
      Step settings index stages (.working work) w (some (.failed job e))
        (fail place job (.executor job.operation e) work) { w with registry }
  | announce {work : Work} {w : World} {event : DeploymentEvent} :
      Step settings index stages (.announcing event work) w none (ofWork work)
        (w.record settings event)
  | enter {w : World} {orderly : Bool} {stage : List Job} {later : List (List Job)} :
      Step settings index stages (.working ⟨orderly, [], stage :: later⟩) w none
        (.working ⟨Stage.crowd < stage.length, stage.map fun job => (job, .ready 1), later⟩) w
  | finish {w : World} {orderly : Bool} :
      Step settings index stages (.working ⟨orderly, [], []⟩) w none (.closing .deployed) w
  | close {w : World} {status : SubgraphStatus} :
      Step settings index stages (.closing status) w none (.over (some status))
        (w.record settings (.ofStatus index status))

variable {settings : DeploymentSettings} {index : Nat} {stages : List (List Job)} {turn : TaskTurn}
  {activity activity' : Activity} {w w' : World}

/-- Every turn that can be taken is one of these. -/
theorem step_of_take? (taken : activity.take? settings index stages turn w = some (activity', w')) :
    Step settings index stages activity w (activity.contact? settings turn w) activity' w' := by
  cases turn <;> cases activity <;> try cases taken
  case start.fresh =>
    simp only [take?] at taken
    split at taken
    · rename_i broken
      cases taken
      exact .breakDown broken
    · rename_i steady
      cases taken
      exact .start steady
  case issue.working place work =>
    simp only [take?, issue?] at taken
    split at taken
    · rename_i job attempt listed
      simp only [contact?, listed]
      split at taken
      · rename_i cancelled
        cases taken
        rw [if_pos cancelled]
        exact .withhold listed cancelled
      · rename_i running
        cases taken
        rw [if_neg running]
        exact .issue listed (Bool.not_eq_true _ ▸ running)
    · cases taken
  case complete.working place work =>
    simp only [take?, complete?] at taken
    split at taken
    · rename_i job attempt listed
      simp only [contact?, listed]
      split at taken
      · rename_i answer registry performed
        have settled : some (settle (job.event? answer)
            { work with current := work.current.eraseIdx place }, { w with registry }) =
              some (activity', w') := by
          rw [← taken]
          cases job.event? answer <;> rfl
        cases settled
        rw [performed]
        exact .succeed listed performed
      · rename_i e registry performed
        rw [performed]
        dsimp only
        split at taken
        · rename_i repeated
          cases taken
          rw [if_pos repeated]
          exact .again listed performed repeated
        · rename_i final
          cases taken
          rw [if_neg final]
          exact .giveUp listed performed (Bool.not_eq_true _ ▸ final)
    · cases taken
  case announce.announcing e work => exact .announce
  case advance.working work =>
    obtain ⟨next, advanced, equal⟩ := Option.map_eq_some_iff.mp taken
    cases equal
    unfold advance? at advanced
    split at advanced
    · cases advanced
      exact .enter
    · cases advanced
      exact .finish
    · cases advanced
  case close.closing status => exact .close

end Activity

end RestWiring

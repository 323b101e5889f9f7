import Mathlib.Algebra.GroupWithZero.Nat
import RestWiring.Proofs.Deployment.Calm

/-!
# Failures that pass

An injected failure strikes so many times and is gone. The failures for a construct strike whichever
calls name it, and one that strikes one call cannot strike another. While a call has more attempts left
than failures can strike it, it is repeated until it goes through, however the failures fall on the
calls; and an attempt that fails leaves no construct behind. So a component all of whose calls are of
this kind goes on as if there were no failures.
-/
namespace RestWiring

namespace Registry

variable {name other : String} {failures failures' rest : List InjectedFailure}
  {f : InjectedFailure} {retryable : Bool} {limit attempt : Nat}

/-- How often failures that pass can still strike the calls that name a construct. -/
def pending (name : String) (failures : List InjectedFailure) : Nat :=
  ((failures.filter (·.construct = name)).map fun f => f.remaining.getD 0).sum

theorem pending_cons : pending name (f :: rest) =
    (if f.construct = name then f.remaining.getD 0 else 0) + pending name rest := by
  unfold pending
  by_cases same : f.construct = name
  · simp [same]
  · simp [same]

theorem pending_append : pending name (failures ++ rest) = pending name failures + pending name rest := by
  simp [pending]

theorem pending_eq_zero (spared : useFailure name failures = none) : pending name failures = 0 := by
  rw [useFailure_eq_none_iff] at spared
  induction failures with
  | nil => rfl
  | cons f rest ih =>
    obtain ⟨first, spared⟩ := List.forall_mem_cons.mp spared
    rw [pending_cons, ih spared]
    split
    · rename_i named
      rw [first named]
      rfl
    · rfl

/-- Whether a call that names a construct and is about to be attempted may be attempted often enough
for all failures that can strike it to pass. -/
structure Bears (limit attempt : Nat) (name : String) (failures : List InjectedFailure) : Prop where
  passing : ∀ f ∈ failures, f.construct = name → f.remaining ≠ none
  enough : pending name failures = 0 ∨ attempt + pending name failures ≤ limit

theorem Bears.of_spared (spared : useFailure name failures = none) : Bears limit attempt name failures where
  passing := fun f member named lasting => by
    have exhausted := useFailure_eq_none_iff.mp spared f member named
    rw [lasting] at exhausted
    cases exhausted
  enough := .inl (pending_eq_zero spared)

/-- Whichever call is struck, no other call has more failures to bear. -/
theorem Bears.struck (bears : Bears limit attempt name failures)
    (struck : useFailure other failures = some (retryable, failures')) :
    Bears limit attempt name failures' := by
  obtain ⟨before, f, after, rfl, -, ⟨-, -, rfl⟩ | ⟨n, remaining, -, rfl⟩⟩ := useFailure_cases struck
  · exact bears
  · obtain ⟨passing, enough⟩ := bears
    constructor
    · intro f' member named
      rcases List.mem_append.mp member with earlier | later
      · exact passing f' (List.mem_append_left _ earlier) named
      · rcases List.mem_cons.mp later with rfl | later
        · exact Option.some_ne_none n
        · exact passing f' (List.mem_append_right _ (List.mem_cons_of_mem _ later)) named
    · by_cases same : f.construct = name
      · simp only [pending_append, pending_cons, remaining, same, if_true, Option.getD_some] at enough ⊢
        omega
      · simpa only [pending_append, pending_cons, same, if_false] using enough

/-- A call that is struck may be repeated, and has one failure fewer to bear with one attempt fewer. -/
theorem Bears.repeats (bears : Bears limit attempt name failures)
    (struck : useFailure name failures = some (retryable, failures')) :
    retryable = true ∧ attempt < limit ∧ Bears limit (attempt + 1) name failures' := by
  have passing := (bears.struck struck).passing
  obtain ⟨before, f, after, rfl, named, ⟨lasting, -⟩ | ⟨n, remaining, passes, rfl⟩⟩ :=
    useFailure_cases struck
  · exact absurd lasting (bears.passing f (by simp) named)
  · have enough := bears.enough
    simp only [pending_append, pending_cons, remaining, named, if_true, Option.getD_some] at enough
    refine ⟨passes, by omega, passing, .inr ?_⟩
    simp only [pending_append, pending_cons, named, if_true, Option.getD_some]
    omega

end Registry

open Registry (Bears)

variable {limit attempt : Nat} {name : String} {failures : List InjectedFailure} {r : Registry}
  {stages : List (List Job)} {done : List Job} {work : Work} {settings : DeploymentSettings}
  {w w' : World} {job : Job} {place index : Nat} {activity activity' : Activity}
  {contact : Option Contact}

theorem Job.perform_bears (bears : Bears limit attempt name r.failures) (job : Job) :
    Bears limit attempt name (job.perform r).2.failures := by
  cases struck : Registry.useFailure job.call.logged.name r.failures with
  | some strike =>
    rw [perform_of_strike struck]
    exact bears.struck struck
  | none =>
    rcases perform_of_spared struck with ⟨-, answer, performed⟩ | ⟨kind, name, performed, -⟩
    · rw [performed]
      exact bears
    · rw [performed]
      exact bears

/-- When a job that bears its failures and finds its constructs fails, it may be attempted again. -/
theorem Job.repeats_of_bears {e : ExecutorError} {r' : Registry}
    (bears : Bears limit attempt job.call.logged.name r.failures)
    (present : ∀ key ∈ job.needs, r.constructs.contains key = true)
    (performed : job.perform r = (.error e, r')) :
    e.isRetryable = true ∧ attempt < limit ∧
      Bears limit (attempt + 1) job.call.logged.name r'.failures := by
  cases struck : Registry.useFailure job.call.logged.name r.failures with
  | some strike =>
    rw [perform_of_strike struck] at performed
    cases performed
    exact bears.repeats struck
  | none =>
    obtain ⟨answer, success⟩ := perform_succeeds struck present
    rw [success] at performed
    cases performed

/-! ## One component -/

/-- Whether a job that is not done can still be done, whatever failures strike it. -/
def JobProgress.Hardy (limit : Nat) (failures : List InjectedFailure) (job : Job) : JobProgress → Prop
  | .ready attempt | .underway attempt => Bears limit attempt job.call.logged.name failures
  | .failed _ => False

/-- Whether nothing has gone wrong for good so far, and the listed jobs can still be done. -/
def Activity.Hardy (limit : Nat) (failures : List InjectedFailure) : Activity → Prop
  | .fresh => True
  | .working work | .announcing _ work => ∀ x ∈ work.current, x.2.Hardy limit failures x.1
  | .closing status => status = .deployed
  | .over status => status = some .deployed

theorem Activity.Hardy.ofWork (hardy : ∀ x ∈ work.current, x.2.Hardy limit failures x.1) :
    (Activity.ofWork work).Hardy limit failures := by
  unfold Activity.ofWork
  split
  · rename_i job e rest listed
    exact (hardy (job, .failed e) (by simp [listed])).elim
  · exact hardy

/-- Attempts of other calls harm no job that bears its failures. -/
theorem JobProgress.Hardy.perform {progress : JobProgress} (hardy : progress.Hardy limit r.failures job)
    (other : Job) : progress.Hardy limit (other.perform r).2.failures job := by
  cases progress with
  | ready | underway => exact other.perform_bears hardy
  | failed => exact hardy

theorem Activity.Hardy.perform (hardy : activity.Hardy limit r.failures) (other : Job) :
    activity.Hardy limit (other.perform r).2.failures := by
  cases activity with
  | fresh => trivial
  | working | announcing => exact fun x member => (hardy x member).perform other
  | closing | «over» => exact hardy

/-- A turn goes well when nothing has been cancelled, the task does not break down, and the jobs bear
their failures and find what they need. -/
theorem Activity.Hardy.step
    (hardy : activity.Hardy settings.retry.maxAttempts w.registry.failures)
    (step : Step settings index stages activity w contact activity' w')
    (running : w.cancelled = false) (steady : settings.breaksDown ≠ some index)
    (bears : ∀ job ∈ stages.flatten,
      Bears settings.retry.maxAttempts 1 job.call.logged.name w.registry.failures)
    (follows : activity.Follows stages done)
    (present : ∀ work, activity = .working work → ∀ job progress, (job, progress) ∈ work.current →
      ∀ key ∈ job.needs, w.registry.constructs.contains key = true) :
    activity'.Hardy settings.retry.maxAttempts w'.registry.failures := by
  cases step with
  | breakDown broken => exact absurd broken steady
  | start =>
    rintro x ⟨⟩
  | withhold _ cancelled =>
    rw [running] at cancelled
    cases cancelled
  | @issue _ _ _ attempt job listed =>
    intro x member
    rcases List.mem_or_eq_of_mem_set member with member | rfl
    · exact hardy x member
    · exact hardy (job, .ready attempt) (List.mem_of_getElem? listed)
  | @succeed work _ place _ job _ registry _ performed =>
    have others : ∀ x ∈ work.current.eraseIdx place,
        x.2.Hardy settings.retry.maxAttempts registry.failures x.1 := by
      intro x member
      have kept := (hardy x (List.mem_of_mem_eraseIdx member)).perform job
      rwa [performed] at kept
    unfold settle
    split
    · exact others
    · exact .ofWork others
  | @again _ _ _ _ job _ _ listed performed =>
    have member := List.mem_of_getElem? listed
    intro x inside
    rcases List.mem_or_eq_of_mem_set inside with inside | rfl
    · have kept := (hardy x inside).perform job
      rwa [performed] at kept
    · exact (Job.repeats_of_bears (hardy _ member) (present _ rfl _ _ member) performed).2.2
  | giveUp listed performed final =>
    have member := List.mem_of_getElem? listed
    obtain ⟨passes, less, -⟩ :=
      Job.repeats_of_bears (hardy _ member) (present _ rfl _ _ member) performed
    simp [RetryPolicy.repeats, passes, less] at final
  | announce => exact .ofWork hardy
  | enter =>
    obtain ⟨past, before, current, now, split, -⟩ := follows
    intro x member
    obtain ⟨job, inside, rfl⟩ := List.mem_map.mp member
    have listed : job ∈ ([] :: stages).flatten := by
      rw [split]
      exact List.mem_flatten_of_mem (by simp) inside
    exact bears job listed
  | finish => rfl
  | close => exact congrArg some hardy

/-! ## A deployment -/

/-- Whether nothing has gone wrong for good for a component, and nothing can while nobody cancels. -/
structure Runner.Hardy (settings : DeploymentSettings) (failures : List InjectedFailure) (r : Runner) :
    Prop where
  hardy : r.activity.Hardy settings.retry.maxAttempts failures
  supplied : Supplied r.stages
  steady : settings.breaksDown ≠ some r.index
  bears : ∀ job ∈ r.stages.flatten, Bears settings.retry.maxAttempts 1 job.call.logged.name failures

theorem Runner.Hardy.perform {r : Registry} {runner : Runner} (hardy : runner.Hardy settings r.failures)
    (other : Job) : runner.Hardy settings (other.perform r).2.failures :=
  ⟨hardy.hardy.perform other, hardy.supplied, hardy.steady,
    fun job member => other.perform_bears (hardy.bears job member)⟩

namespace Deployment

variable {base : Constructs} {trace : List (Nat × Job)} {d d' : Deployment} {turn : Turn}
  {places : Nat → Prop}

/-- Whether a deployment has not been cancelled and the components at some places can still be
deployed. -/
structure Hardy (settings : DeploymentSettings) (places : Nat → Prop) (d : Deployment) : Prop where
  running : d.world.cancelled = false
  hardy : ∀ {place : Nat} {r : Runner}, d.runners[place]? = some r → places place →
    r.Hardy settings d.world.registry.failures

/-- Whatever any component does, those that can be deployed still can. -/
theorem Hardy.take? (hardy : Hardy settings places d) (traces : Traces base trace d)
    (named : Named base) (automatic : settings.cancelAfter = none)
    (taken : d.take? settings turn = some d') (uncancelled : turn ≠ .cancel) :
    Hardy settings places d' := by
  cases turn with
  | cancel => exact absurd rfl uncancelled
  | task place taskTurn =>
    obtain ⟨r, activity, world, found, step, rfl⟩ := take?_task taken
    obtain ⟨touched, cancelled⟩ := (Activity.step_of_take? step).world automatic
    have kept {runner : Runner} (before : runner.Hardy settings d.world.registry.failures) :
        runner.Hardy settings world.registry.failures := by
      rcases touched with same | ⟨job, performed⟩
      · rwa [same]
      · rw [performed]
        exact before.perform job
    refine ⟨cancelled.trans hardy.running, fun {other r'} found' listed => ?_⟩
    rcases getElem?_set_cases found' with ⟨rfl, rfl⟩ | ⟨-, found'⟩
    · have before := hardy.hardy found listed
      refine ⟨?_, (kept before).supplied, (kept before).steady, (kept before).bears⟩
      exact before.hardy.step (Activity.step_of_take? step) hardy.running before.steady before.bears
        (traces.follows found) fun work working job progress inside =>
          traces.present named found before.supplied working inside
    · exact kept (hardy.hardy found' listed)

theorem Hardy.takeAll? {turns : List Turn} (hardy : Hardy settings places d)
    (traces : Traces base trace d) (named : Named base) (automatic : settings.cancelAfter = none)
    (taken : d.takeAll? settings turns = some d') (uncancelled : .cancel ∉ turns) :
    ∃ trace', Traces base trace' d' ∧ Hardy settings places d' := by
  refine takeAll?_keeps (fun x => ∃ trace, Traces base trace x ∧ Hardy settings places x) taken
    ⟨trace, traces, hardy⟩ fun member first earlier => ?_
  obtain ⟨trace, traces, hardy⟩ := earlier
  have hardy' := hardy.take? traces named automatic first fun same => uncancelled (same ▸ member)
  rcases traces.take? first with same | ⟨e, more⟩
  · exact ⟨_, same, hardy'⟩
  · exact ⟨_, more, hardy'⟩

end Deployment

end RestWiring

import RestWiring.Proofs.Deployment.Coordination

/-!
# Components without trouble

When no injected failure strikes the calls of a component, its task does not break down and nobody
cancels, every job that it attempts succeeds: what the job needs has been provided by an earlier
stage. Such a component ends with all its jobs done, whatever turns are taken and however the other
components fare.
-/
namespace RestWiring

/-! ## Failures that strike elsewhere -/

namespace Registry

variable {r : Registry} {name other : String} {failures failures' : List InjectedFailure}

/-- Whether no injected failure strikes the calls that name a construct. -/
def Spares (r : Registry) (name : String) : Prop := useFailure name r.failures = none

/-- Whether no injected failure is left that can strike. -/
def Quiet (r : Registry) : Prop := ∀ f ∈ r.failures, f.remaining = some 0

/-- A failure that cannot strike a call is passed over. -/
theorem useFailure_cons_of_exhausted {f : InjectedFailure} {rest : List InjectedFailure}
    (exhausted : f.construct = name → f.remaining = some 0) :
    useFailure name (f :: rest) = (useFailure name rest).map fun used => (used.1, f :: used.2) := by
  rw [useFailure]
  split
  · rename_i named
    rw [exhausted named]
  · rfl

theorem useFailure_eq_none_iff :
    useFailure name failures = none ↔
      ∀ f ∈ failures, f.construct = name → f.remaining = some 0 := by
  induction failures with
  | nil => simp [useFailure]
  | cons f rest ih =>
    obtain ⟨construct, remaining⟩ := f
    rw [List.forall_mem_cons, useFailure]
    by_cases same : construct = name
    · match remaining with
      | none => simp [same]
      | some (n + 1) => simp [same]
      | some 0 => simp [same, ih]
    · simp [same, ih]

theorem Quiet.spares (quiet : r.Quiet) (name : String) : r.Spares name :=
  useFailure_eq_none_iff.mpr fun f member _ => quiet f member

/-- A strike uses up one failure for the construct, or one that never passes. -/
theorem useFailure_cases {retryable : Bool}
    (struck : useFailure name failures = some (retryable, failures')) :
    ∃ before f after, failures = before ++ f :: after ∧ f.construct = name ∧
      ((f.remaining = none ∧ retryable = false ∧ failures' = failures) ∨
        ∃ n, f.remaining = some (n + 1) ∧ retryable = true ∧
          failures' = before ++ { f with remaining := some n } :: after) := by
  induction failures generalizing failures' with
  | nil => cases struck
  | cons f rest ih =>
    by_cases exhausted : f.construct = name → f.remaining = some 0
    · rw [useFailure_cons_of_exhausted exhausted] at struck
      obtain ⟨⟨_, rest'⟩, found, equal⟩ := Option.map_eq_some_iff.mp struck
      cases equal
      obtain ⟨before, f', after, rfl, named, lasting | ⟨n, remaining, passes, rfl⟩⟩ := ih found
      · obtain ⟨remaining, lasts, rfl⟩ := lasting
        exact ⟨f :: before, f', after, rfl, named, .inl ⟨remaining, lasts, rfl⟩⟩
      · exact ⟨f :: before, f', after, rfl, named, .inr ⟨n, remaining, passes, rfl⟩⟩
    · obtain ⟨named, live⟩ := Classical.not_imp.mp exhausted
      refine ⟨[], f, rest, rfl, named, ?_⟩
      rw [useFailure, if_pos named] at struck
      split at struck
      · rename_i lasting
        cases struck
        exact .inl ⟨lasting, rfl, rfl⟩
      · rename_i n left
        cases struck
        exact .inr ⟨n, left, rfl, rfl⟩
      · rename_i spent
        exact absurd spent live

/-- Using up a failure harms no construct that was spared before. -/
theorem useFailure_spares {retryable : Bool}
    (struck : useFailure other failures = some (retryable, failures'))
    (spared : useFailure name failures = none) : useFailure name failures' = none := by
  rw [useFailure_eq_none_iff] at spared ⊢
  obtain ⟨before, f, after, rfl, -, ⟨-, -, rfl⟩ | ⟨n, left, -, rfl⟩⟩ := useFailure_cases struck
  · exact spared
  · intro f' member named
    rcases List.mem_append.mp member with earlier | later
    · exact spared f' (List.mem_append_left _ earlier) named
    · rcases List.mem_cons.mp later with rfl | later
      · -- What strikes has a strike left, so that it is not for a construct that is spared.
        have exhausted := spared f (by simp) named
        rw [left] at exhausted
        cases exhausted
      · exact spared f' (List.mem_append_right _ (List.mem_cons_of_mem _ later)) named

end Registry

theorem Job.perform_spares {r : Registry} {name : String} (spares : r.Spares name) (job : Job) :
    (job.perform r).2.Spares name := by
  cases struck : Registry.useFailure job.call.logged.name r.failures with
  | some strike =>
    rw [perform_of_strike struck]
    exact Registry.useFailure_spares struck spares
  | none =>
    rcases perform_of_spared struck with ⟨-, answer, performed⟩ | ⟨kind, name, performed, -⟩
    · rw [performed]
      exact spares
    · rw [performed]
      exact spares

/-! ## One component -/

/-- Whether what every job needs is provided by an earlier stage. -/
def Supplied (stages : List (List Job)) : Prop :=
  ∀ past stage later, stages = past ++ stage :: later →
    ∀ job ∈ stage, ∀ key ∈ job.needs, ∃ j ∈ past.flatten, j.provides = some key

/-- Whether nothing has gone wrong so far. -/
def Activity.Fine : Activity → Prop
  | .fresh => True
  | .working work | .announcing _ work => ∀ x ∈ work.current, ∀ e, x.2 ≠ .failed e
  | .closing status => status = .deployed
  | .over status => status = some .deployed

variable {stages : List (List Job)} {done : List Job} {work : Work}
  {settings : DeploymentSettings} {w w' : World} {job : Job} {place index : Nat}
  {activity activity' : Activity} {contact : Option Contact}

theorem Work.Follows.mem_flatten (follows : work.Follows stages done) {progress : JobProgress}
    (listed : (job, progress) ∈ work.current) : job ∈ stages.flatten := by
  obtain ⟨past, before, stage, now, split, -, permuted, -⟩ := follows
  have member : job ∈ stage :=
    permuted.subset (List.mem_append_right _ (List.mem_map_of_mem listed))
  have inside : job ∈ ([] :: stages).flatten := by
    rw [split]
    exact List.mem_flatten_of_mem (List.mem_append_right _ List.mem_cons_self) member
  exact inside

/-- The jobs that provide what a listed job needs have been done. -/
theorem Work.Follows.supplied (follows : work.Follows stages done) (supplied : Supplied stages)
    {progress : JobProgress} (listed : (job, progress) ∈ work.current) :
    ∀ key ∈ job.needs, ∃ j ∈ done, j.provides = some key := by
  obtain ⟨past, before, stage, now, split, linear, permuted, rfl⟩ := follows
  intro key needed
  have member : job ∈ stage :=
    permuted.subset (List.mem_append_right _ (List.mem_map_of_mem listed))
  cases past with
  | nil =>
    cases split
    cases member
  | cons first past =>
    cases split
    obtain ⟨j, earlier, provided⟩ := supplied past stage work.later rfl job member key needed
    exact ⟨j, List.mem_append_left _ (linear.tail.perm.symm.subset earlier), provided⟩

theorem Activity.Fine.ofWork (fine : ∀ x ∈ work.current, ∀ e, x.2 ≠ .failed e) :
    (Activity.ofWork work).Fine := by
  unfold Activity.ofWork
  split
  · rename_i job e rest listed
    exact absurd rfl (fine (job, .failed e) (by simp [listed]) e)
  · exact fine

/-- A turn leaves the backend alone or attempts one job on it. Unless the settings say so, it does not
cancel the deployment. -/
theorem Activity.Step.world (step : Step settings index stages activity w contact activity' w')
    (automatic : settings.cancelAfter = none) :
    (w'.registry = w.registry ∨ ∃ job : Job, w'.registry = (job.perform w.registry).2) ∧
      w'.cancelled = w.cancelled := by
  have recorded (e : DeploymentEvent) : (w.record settings e).cancelled = w.cancelled := by
    simp [World.record, automatic]
  cases step with
  | succeed _ performed | again _ performed | giveUp _ performed =>
    exact ⟨.inr ⟨_, by rw [performed]⟩, rfl⟩
  | start | announce | close => exact ⟨.inl rfl, recorded _⟩
  | _ => exact ⟨.inl rfl, rfl⟩

/-- A turn goes well when nothing has been cancelled, the task does not break down, and the jobs are
spared and find what they need. -/
theorem Activity.Fine.step (fine : activity.Fine)
    (step : Step settings index stages activity w contact activity' w')
    (running : w.cancelled = false) (steady : settings.breaksDown ≠ some index)
    (able : ∀ work, activity = .working work → ∀ job progress, (job, progress) ∈ work.current →
      w.registry.Spares job.call.logged.name ∧
        ∀ key ∈ job.needs, w.registry.constructs.contains key = true) : activity'.Fine := by
  cases step with
  | breakDown broken => exact absurd broken steady
  | start =>
    rintro x ⟨⟩
  | withhold _ cancelled =>
    rw [running] at cancelled
    cases cancelled
  | issue =>
    intro x member e failed
    rcases List.mem_or_eq_of_mem_set member with member | rfl
    · exact fine x member e failed
    · cases failed
  | @succeed work _ place _ _ answer _ _ performed =>
    have others : ∀ x ∈ work.current.eraseIdx place, ∀ e, x.2 ≠ .failed e :=
      fun x member => fine x (List.mem_of_mem_eraseIdx member)
    unfold settle
    split
    · exact others
    · exact .ofWork others
  | again listed performed | giveUp listed performed =>
    obtain ⟨spared, present⟩ := able _ rfl _ _ (List.mem_of_getElem? listed)
    obtain ⟨answer, success⟩ := Job.perform_succeeds spared present
    rw [success] at performed
    cases performed
  | announce => exact .ofWork fine
  | enter =>
    intro x member e failed
    obtain ⟨job, -, rfl⟩ := List.mem_map.mp member
    cases failed
  | finish => rfl
  | close => exact congrArg some fine

/-! ## A deployment -/

/-- Whether nothing has gone wrong for a component and nothing can while nobody cancels. -/
structure Runner.Calm (settings : DeploymentSettings) (registry : Registry) (r : Runner) : Prop where
  fine : r.activity.Fine
  supplied : Supplied r.stages
  steady : settings.breaksDown ≠ some r.index
  spared : ∀ job ∈ r.stages.flatten, registry.Spares job.call.logged.name

namespace Deployment

variable {base : Constructs} {trace : List (Nat × Job)} {d d' : Deployment} {turn : Turn}
  {places : Nat → Prop}

/-- Whether a deployment has not been cancelled and the components at some places are without
trouble. -/
structure Calm (settings : DeploymentSettings) (places : Nat → Prop) (d : Deployment) : Prop where
  running : d.world.cancelled = false
  calm : ∀ {place : Nat} {r : Runner}, d.runners[place]? = some r → places place →
    r.Calm settings d.world.registry

/-- A component finds what its next jobs need. -/
theorem Traces.present (traces : Traces base trace d) (named : Named base) {r : Runner}
    (found : d.runners[place]? = some r) (supplied : Supplied r.stages)
    (working : r.activity = .working work) {progress : JobProgress}
    (listed : (job, progress) ∈ work.current) :
    ∀ key ∈ job.needs, d.world.registry.constructs.contains key = true := by
  intro key needed
  have follows := traces.follows found
  rw [working] at follows
  obtain ⟨j, earlier, provided⟩ := Work.Follows.supplied follows supplied listed key needed
  have member : j ∈ trace.map (·.2) :=
    List.mem_map.mpr ⟨(place, j), mem_jobsOf.mp earlier, rfl⟩
  rw [traces.constructs, ← Job.key_of_provides provided]
  exact traces.replayable.contains_of_touched named member

/-- Turns harm no construct that no failure could strike before. -/
theorem take?_spares {name : String} (automatic : settings.cancelAfter = none)
    (taken : d.take? settings turn = some d') (spares : d.world.registry.Spares name) :
    d'.world.registry.Spares name := by
  cases turn with
  | cancel =>
    cases taken
    exact spares
  | task place turn =>
    obtain ⟨r, activity, world, -, step, rfl⟩ := take?_task taken
    obtain ⟨same | ⟨job, performed⟩, -⟩ := (Activity.step_of_take? step).world automatic
    · rwa [same]
    · rw [performed]
      exact Job.perform_spares spares job

theorem takeAll?_spares {name : String} {turns : List Turn}
    (automatic : settings.cancelAfter = none) (taken : d.takeAll? settings turns = some d')
    (spares : d.world.registry.Spares name) : d'.world.registry.Spares name := by
  exact takeAll?_keeps (fun x => x.world.registry.Spares name) taken spares fun _ first =>
    take?_spares automatic first

/-- Whatever any component does, those without trouble stay so. -/
theorem Calm.take? (calm : Calm settings places d) (traces : Traces base trace d)
    (named : Named base) (automatic : settings.cancelAfter = none)
    (taken : d.take? settings turn = some d') (uncancelled : turn ≠ .cancel) :
    Calm settings places d' := by
  cases turn with
  | cancel => exact absurd rfl uncancelled
  | task place taskTurn =>
    obtain ⟨r, activity, world, found, step, rfl⟩ := take?_task taken
    obtain ⟨-, cancelled⟩ := (Activity.step_of_take? step).world automatic
    have spares {name : String} (before : d.world.registry.Spares name) :
        world.registry.Spares name := take?_spares automatic taken before
    refine ⟨cancelled.trans calm.running, fun {other r'} found' untroubled => ?_⟩
    rcases getElem?_set_cases found' with ⟨rfl, rfl⟩ | ⟨-, found'⟩
    · obtain ⟨fine, supplied, steady, spared⟩ := calm.calm found untroubled
      refine ⟨?_, supplied, steady, fun job member => spares (spared job member)⟩
      refine fine.step (Activity.step_of_take? step) calm.running steady
        fun work working job progress listed => ⟨?_, ?_⟩
      · have follows := traces.follows found
        rw [working] at follows
        exact spared job (Work.Follows.mem_flatten follows listed)
      · exact traces.present named found supplied working listed
    · obtain ⟨fine, supplied, steady, spared⟩ := calm.calm found' untroubled
      exact ⟨fine, supplied, steady, fun job member => spares (spared job member)⟩

theorem Calm.takeAll? {turns : List Turn} (calm : Calm settings places d)
    (traces : Traces base trace d) (named : Named base) (automatic : settings.cancelAfter = none)
    (taken : d.takeAll? settings turns = some d') (uncancelled : .cancel ∉ turns) :
    ∃ trace', Traces base trace' d' ∧ Calm settings places d' := by
  refine takeAll?_keeps (fun x => ∃ trace, Traces base trace x ∧ Calm settings places x) taken
    ⟨trace, traces, calm⟩ fun member first earlier => ?_
  obtain ⟨trace, traces, calm⟩ := earlier
  have calm' := calm.take? traces named automatic first fun same => uncancelled (same ▸ member)
  rcases traces.take? first with same | ⟨e, more⟩
  · exact ⟨_, same, calm'⟩
  · exact ⟨_, more, calm'⟩

end Deployment

end RestWiring

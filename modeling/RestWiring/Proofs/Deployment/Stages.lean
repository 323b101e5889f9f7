import Mathlib.Data.List.Perm.Basic
import RestWiring.Proofs.Deployment.Jobs
import RestWiring.Proofs.Deployment.Turns

/-!
# The order of jobs

The jobs of a component that have been done come from its first stages in full and from one more
stage in part. Whatever turns a deployment takes, each of its components keeps to this order, and
the backend holds what the jobs that were done have made.
-/
namespace RestWiring

/-- Whether jobs are those of some stages, stage after stage, each stage in any order. -/
inductive Linearises : List (List Job) → List Job → Prop
  | nil : Linearises [] []
  | cons {stage now : List Job} {later : List (List Job)} {done : List Job}
    (permuted : now.Perm stage)
      (rest : Linearises later done) : Linearises (stage :: later) (now ++ done)

namespace Linearises

variable {stages later : List (List Job)} {stage done now rest : List Job} {job : Job}

theorem flatten (stages : List (List Job)) : Linearises stages stages.flatten := by
  induction stages with
  | nil => exact .nil
  | cons stage later ih => exact .cons (.refl stage) ih

theorem cons_iff :
    Linearises (stage :: later) done ↔
      ∃ now rest, done = now ++ rest ∧ now.Perm stage ∧ Linearises later rest := by
  constructor
  · rintro ⟨⟩
    exact ⟨_, _, rfl, ‹_›, ‹_›⟩
  · rintro ⟨now, rest, rfl, permuted, linear⟩
    exact .cons permuted linear

theorem append (first : Linearises stages done) (second : Linearises later now) :
    Linearises (stages ++ later) (done ++ now) := by
  induction first with
  | nil => exact second
  | cons permuted _ ih =>
    rw [List.cons_append, List.append_assoc]
    exact .cons permuted ih

theorem snoc (first : Linearises stages done) (permuted : now.Perm stage) :
    Linearises (stages ++ [stage]) (done ++ now) := by
  have last : Linearises [stage] (now ++ []) := .cons permuted .nil
  rw [List.append_nil] at last
  exact first.append last

/-- The jobs of the stages and no other ones. -/
theorem perm (linear : Linearises stages done) : done.Perm stages.flatten := by
  induction linear with
  | nil => exact .nil
  | cons permuted _ ih => exact permuted.append ih

theorem tail (linear : Linearises ([] :: stages) done) : Linearises stages done := by
  cases linear with
  | cons permuted rest =>
    rw [permuted.eq_nil]
    exact rest

/-- The first job is one of the first stage, unless that stage is empty. -/
theorem head (linear : Linearises (stage :: later) (job :: rest)) :
    stage = [] ∨ ∃ before after, stage = before ++ job :: after ∧
      Linearises ((before ++ after) :: later) rest := by
  obtain ⟨now, others, split, permuted, behind⟩ := cons_iff.mp linear
  cases now with
  | nil => exact .inl permuted.symm.eq_nil
  | cons first now =>
    cases split
    obtain ⟨before, after, rfl⟩ := List.append_of_mem (permuted.subset List.mem_cons_self)
    exact .inr ⟨before, after, rfl, .cons (permuted.trans List.perm_middle).cons_inv behind⟩

/-- When no job is left, neither is a stage with jobs. -/
theorem eq_nil (linear : Linearises (stage :: later) []) : stage = [] ∧ Linearises later [] := by
  obtain ⟨now, others, split, permuted, behind⟩ := cons_iff.mp linear
  obtain ⟨rfl, rfl⟩ := List.append_eq_nil_iff.mp split.symm
  exact ⟨permuted.symm.eq_nil, behind⟩

end Linearises

/-! ## Progress of one component -/

variable {stages : List (List Job)} {done : List Job} {work : Work} {settings : DeploymentSettings}
  {w w' : World}
  {job : Job} {place : Nat}

/-- How far work has come: the stages before the current one are done, and of the current one all
jobs but those that are listed. The stage before the first one is empty. -/
def Work.Follows (work : Work) (stages : List (List Job)) (done : List Job) : Prop :=
  ∃ past before stage now, [] :: stages = past ++ stage :: work.later ∧ Linearises past before ∧
    (now ++ work.current.map (·.1)).Perm stage ∧ done = before ++ now

/-- How far an activity has come: only one that ends well has done all its jobs. -/
def Activity.Follows (stages : List (List Job)) (done : List Job) : Activity → Prop
  | .fresh | .over none => done = []
  | .working work | .announcing _ work => work.Follows stages done
  | .closing .deployed | .over (some .deployed) => Linearises stages done
  | .closing _ | .over (some _) => ∃ work : Work, work.Follows stages done

theorem Activity.follows_over {status : SubgraphStatus}
    (follows : (Activity.closing status).Follows stages done) :
    (Activity.over (some status)).Follows stages done := by
  cases status <;> exact follows

theorem Activity.follows_unfinished {e : OrchestrationError} (follows : work.Follows stages done) :
    (Activity.closing (Task.statusOf e)).Follows stages done := by
  cases e <;> exact ⟨work, follows⟩

theorem Activity.follows_ofWork (follows : work.Follows stages done) :
    (Activity.ofWork work).Follows stages done := by
  unfold Activity.ofWork
  split
  · exact follows_unfinished follows
  · exact follows

/-- What is said of a job that is listed may change. -/
theorem Work.Follows.set {progress progress' : JobProgress} (follows : work.Follows stages done)
    (listed : work.current[place]? = some (job, progress)) :
    Work.Follows { work with current := work.current.set place (job, progress') } stages done := by
  obtain ⟨past, before, stage, now, split, linear, permuted, equal⟩ := follows
  refine ⟨past, before, stage, now, split, linear, ?_, equal⟩
  have same : (work.current.set place (job, progress')).map (·.1) = work.current.map (·.1) := by
    rw [List.map_set]
    apply List.ext_getElem?
    intro i
    rw [List.getElem?_set]
    split
    · rename_i at_place
      subst at_place
      split
      · simp [listed]
      · simp_all
    · rfl
  rw [same]
  exact permuted

theorem Activity.follows_fail {progress : JobProgress} (follows : work.Follows stages done)
    (listed : work.current[place]? = some (job, progress)) (e : OrchestrationError) :
    (Activity.fail place job e work).Follows stages done := by
  unfold Activity.fail
  split
  · exact follows_ofWork (follows.set listed)
  · exact follows_unfinished follows

/-- A job that is done is no longer listed. -/
theorem Work.Follows.erase {progress : JobProgress} (follows : work.Follows stages done)
    (listed : work.current[place]? = some (job, progress)) :
    Work.Follows { work with current := work.current.eraseIdx place } stages (done ++ [job]) := by
  obtain ⟨past, before, stage, now, split, linear, permuted, rfl⟩ := follows
  refine ⟨past, before, stage, now ++ [job], split, linear, ?_, by rw [List.append_assoc]⟩
  obtain ⟨inside, found⟩ := List.getElem?_eq_some_iff.mp listed
  have taken := (List.getElem_cons_eraseIdx_perm inside).map (·.1)
  rw [found, List.map_cons] at taken
  rw [List.append_assoc]
  exact (taken.append_left now).trans permuted

/-- With all jobs of a stage done, the next stage is the current one. -/
theorem Work.Follows.enter {orderly orderly' : Bool} {stage : List Job} {later : List (List Job)}
    (follows : Work.Follows ⟨orderly, [], stage :: later⟩ stages done) :
    Work.Follows ⟨orderly', stage.map fun job => (job, .ready 1), later⟩ stages done := by
  obtain ⟨past, before, current, now, split, linear, permuted, rfl⟩ := follows
  rw [List.map_nil, List.append_nil] at permuted
  refine ⟨past ++ [current], before ++ now, stage, [], by simp [split], linear.snoc permuted, ?_,
    by simp⟩
  simp [Function.comp_def]

theorem Work.Follows.finish {orderly : Bool} (follows : Work.Follows ⟨orderly, [], []⟩ stages done) :
    Linearises stages done := by
  obtain ⟨past, before, current, now, split, linear, permuted, rfl⟩ := follows
  rw [List.map_nil, List.append_nil] at permuted
  exact Linearises.tail (split ▸ linear.snoc permuted)

/-- A component does the job whose call succeeds, the next in order, and no other one. -/
theorem Activity.Step.follows {index : Nat} {activity activity' : Activity} {contact : Option Contact}
    (step : Step settings index stages activity w contact activity' w')
    (follows : activity.Follows stages done) :
    activity'.Follows stages (done ++ contact.toList.filterMap Contact.success?) := by
  cases step <;>
    simp only [Option.toList_none, Option.toList_some, List.filterMap_nil, List.filterMap_cons,
      Contact.success?, List.append_nil]
  case breakDown => exact follows
  case start =>
    cases follows
    exact ⟨[], [], [], [], rfl, .nil, .nil, rfl⟩
  case withhold listed _ => exact follows_fail follows listed _
  case issue listed _ => exact follows.set listed
  case succeed job answer registry listed performed =>
    unfold settle
    split
    · exact follows.erase listed
    · exact follows_ofWork (follows.erase listed)
  case again listed _ _ => exact follows.set listed
  case giveUp listed _ _ => exact follows_fail follows listed _
  case announce => exact follows_ofWork follows
  case enter => exact follows.enter
  case finish => exact follows.finish
  case close => exact follows_over follows

/-- A turn of a component does at most one of its jobs, the next in order, and the backend changes
by that job alone. -/
theorem Activity.take?_follows {turn : TaskTurn} {index : Nat} {activity activity' : Activity}
    (follows : activity.Follows stages done)
    (taken : activity.take? settings index stages turn w = some (activity', w')) :
    (activity'.Follows stages done ∧ w'.registry.constructs = w.registry.constructs) ∨
    ∃ job, activity'.Follows stages (done ++ [job]) ∧
      (∀ key ∈ job.needs, w.registry.constructs.contains key = true) ∧
      w'.registry.constructs = job.apply w.registry.constructs := by
  have step := step_of_take? taken
  have follows' := step.follows follows
  generalize activity.contact? settings turn w = contact at step follows'
  cases step with
  | succeed listed performed =>
    obtain ⟨present, applied⟩ := Job.perform_success performed
    exact .inr ⟨_, follows', present, congrArg Registry.constructs applied⟩
  | again listed performed | giveUp listed performed =>
    exact .inl ⟨List.append_nil done ▸ follows', Job.perform_failure performed⟩
  | _ => exact .inl ⟨List.append_nil done ▸ follows', rfl⟩

/-! ## Progress of a deployment -/

/-- The jobs that the component at one place has done, given who has done what. -/
def jobsOf (trace : List (Nat × Job)) (place : Nat) : List Job :=
  (trace.filter (·.1 = place)).map (·.2)

/-- Whether a deployment has come about by the jobs of a trace: every component has done its own
jobs in order, and the backend holds what all jobs have made of what there was. -/
structure Deployment.Traces (base : Constructs) (trace : List (Nat × Job)) (d : Deployment) :
    Prop where
  constructs : d.world.registry.constructs = replay base (trace.map (·.2))
  replayable : Replayable base (trace.map (·.2))
  follows : ∀ {place : Nat} {r : Runner}, d.runners[place]? = some r →
    r.activity.Follows r.stages (jobsOf trace place)
  placed : ∀ e ∈ trace, e.1 < d.runners.length

theorem jobsOf_snoc_self (trace : List (Nat × Job)) (place : Nat) (job : Job) :
    jobsOf (trace ++ [(place, job)]) place = jobsOf trace place ++ [job] := by
  simp [jobsOf, List.filter_append]

theorem jobsOf_snoc_of_ne (trace : List (Nat × Job)) {place other : Nat} (different : place ≠ other)
    (job : Job) :
    jobsOf (trace ++ [(other, job)]) place = jobsOf trace place := by
  simp [jobsOf, List.filter_append, different.symm]

theorem mem_jobsOf {trace : List (Nat × Job)} :
    job ∈ jobsOf trace place ↔ (place, job) ∈ trace := by
  simp [jobsOf]

/-- What a component is to do in a deployment, and under which number. -/
def Runner.assignment (r : Runner) : Nat × Option SubgraphPlan × List (List Job) :=
  (r.index, r.plan, r.stages)

/-- What stands at a place of a list in which one item has been replaced. -/
theorem getElem?_set_cases {α : Type} {as : List α} {i j : Nat} {a b : α}
    (found : (as.set i a)[j]? = some b) : (j = i ∧ b = a) ∨ (j ≠ i ∧ as[j]? = some b) := by
  by_cases same : i = j
  · subst same
    obtain ⟨inside, rfl⟩ := List.getElem?_eq_some_iff.mp found
    exact .inl ⟨rfl, List.getElem_set_self inside⟩
  · rw [List.getElem?_set_ne same] at found
    exact .inr ⟨Ne.symm same, found⟩

/-- What does not tell an item from the one that takes its place, does not tell the lists. -/
theorem map_set_of_eq {α β : Type} {f : α → β} {as : List α} {i : Nat} {a b : α}
    (found : as[i]? = some a) (same : f b = f a) : (as.set i b).map f = as.map f := by
  obtain ⟨inside, rfl⟩ := List.getElem?_eq_some_iff.mp found
  rw [List.map_set, same, ← List.getElem_map f (h := by simpa using inside), List.set_getElem_self]

namespace Deployment

variable {base : Constructs} {trace : List (Nat × Job)} {d d' : Deployment} {turn : Turn}

/-- What every turn keeps is kept by all turns together. -/
theorem takeAll?_keeps (keeps : Deployment → Prop) {turns : List Turn}
    (taken : d.takeAll? settings turns = some d') (start : keeps d)
    (step : ∀ {d d' : Deployment} {turn : Turn}, turn ∈ turns → d.take? settings turn = some d' → keeps d → keeps d') :
    keeps d' := by
  induction turns generalizing d with
  | nil =>
    cases taken
    exact start
  | cons turn turns ih =>
    obtain ⟨next, first, rest⟩ := Option.bind_eq_some_iff.mp taken
    exact ih rest (step List.mem_cons_self first start) fun member =>
      step (List.mem_cons_of_mem _ member)

/-- What a turn of a component does to a deployment. -/
theorem take?_task {taskTurn : TaskTurn}
    (taken : d.take? settings (.task place taskTurn) = some d') :
    ∃ r activity world, d.runners[place]? = some r ∧
      r.activity.take? settings r.index r.stages taskTurn d.world = some (activity, world) ∧
      d' = ⟨d.runners.set place { r with activity }, world⟩ := by
  obtain ⟨r, found, taken⟩ := Option.bind_eq_some_iff.mp taken
  obtain ⟨⟨r', world⟩, moved, equal⟩ := Option.bind_eq_some_iff.mp taken
  obtain ⟨⟨activity, world'⟩, step, same⟩ := Option.map_eq_some_iff.mp moved
  cases same
  cases equal
  exact ⟨r, activity, world, found, step, rfl⟩

/-- A turn adds at most one job to the trace. -/
theorem Traces.take? (traces : Traces base trace d) (taken : d.take? settings turn = some d') :
    Traces base trace d' ∨ ∃ e, Traces base (trace ++ [e]) d' := by
  cases turn with
  | cancel =>
    cases taken
    exact .inl ⟨traces.constructs, traces.replayable, traces.follows, traces.placed⟩
  | task place taskTurn =>
    obtain ⟨r, activity, world, found, step, rfl⟩ := take?_task taken
    obtain ⟨inside, -⟩ := List.getElem?_eq_some_iff.mp found
    rcases Activity.take?_follows (traces.follows found) step with
      ⟨follows, same⟩ | ⟨job, follows, present, applied⟩
    · refine .inl ⟨same.trans traces.constructs, traces.replayable, fun {other r'} found' => ?_, ?_⟩
      swap
      · simpa using traces.placed
      rcases getElem?_set_cases found' with ⟨rfl, rfl⟩ | ⟨-, found'⟩
      · exact follows
      · exact traces.follows found'
    · rw [traces.constructs] at present applied
      refine .inr ⟨(place, job), ?_, ?_, fun {other r'} found' => ?_, ?_⟩
      · rw [applied, List.map_append]
        exact (replay_snoc ..).symm
      · rw [List.map_append]
        exact traces.replayable.snoc present
      · rcases getElem?_set_cases found' with ⟨rfl, rfl⟩ | ⟨different, found'⟩
        · rw [jobsOf_snoc_self]
          exact follows
        · rw [jobsOf_snoc_of_ne trace different]
          exact traces.follows found'
      · intro e member
        rw [List.length_set]
        rcases List.mem_append.mp member with earlier | last
        · exact traces.placed e earlier
        · rw [List.mem_singleton.mp last]
          exact inside

/-- A deployment that has just begun has done no job. -/
theorem Traces.begin (settings : DeploymentSettings) (channel : String) (g : OrchestrationGraph)
    (w : World) :
    Traces w.registry.constructs [] (Deployment.begin settings channel g w) where
  constructs := rfl
  replayable := .nil
  follows := by
    intro place r found
    obtain ⟨⟨index, component, result⟩, -, rfl⟩ := List.mem_map.mp (List.mem_of_getElem? found)
    cases result with
    | ok plan => exact rfl
    | error e => exact ⟨⟨false, [], []⟩, [], [], [], [], rfl, .nil, .nil, rfl⟩
  placed := by simp

/-- Every deployment has a trace, whatever turns it has taken. -/
theorem Traces.takeAll? {turns : List Turn} (traces : Traces base trace d)
    (taken : d.takeAll? settings turns = some d') : ∃ trace', Traces base trace' d' := by
  refine takeAll?_keeps (fun x => ∃ trace, Traces base trace x) taken ⟨trace, traces⟩
    fun _ first earlier => ?_
  obtain ⟨trace, traces⟩ := earlier
  rcases traces.take? first with same | ⟨e, more⟩
  · exact ⟨_, same⟩
  · exact ⟨_, more⟩

/-- A turn changes neither what is deployed nor how. -/
theorem take?_assignments (taken : d.take? settings turn = some d') :
    d'.runners.map Runner.assignment = d.runners.map Runner.assignment := by
  cases turn with
  | cancel =>
    cases taken
    rfl
  | task place taskTurn =>
    obtain ⟨r, activity, world, found, -, rfl⟩ := take?_task taken
    exact map_set_of_eq found rfl

theorem takeAll?_assignments {turns : List Turn} (taken : d.takeAll? settings turns = some d') :
    d'.runners.map Runner.assignment = d.runners.map Runner.assignment := by
  exact takeAll?_keeps (fun x => x.runners.map Runner.assignment = d.runners.map Runner.assignment)
    taken rfl fun _ first same => (take?_assignments first).trans same

end Deployment

end RestWiring

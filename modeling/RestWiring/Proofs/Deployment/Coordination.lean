import RestWiring.Proofs.Deployment.Records
import RestWiring.Proofs.Deployment.Stages

/-!
# Components that do not disturb one another

Components share a backend, but only one of them works on a function, and it does so job by job. All
other constructs are created alike by all components, and who may publish to a topic is a set. The
order in which components take turns therefore leaves no trace in the backend, and neither does a
run that has been broken off before.
-/
namespace RestWiring

/-! ## Runs that are broken off -/

/-- Whether jobs are the first ones of some stages: stage after stage, and of the last one some. -/
inductive Begins : List (List Job) → List Job → Prop
  | nil {stages : List (List Job)} : Begins stages []
  | part {stage now rest : List Job} {later : List (List Job)} (some : (now ++ rest).Perm stage) :
    Begins (stage :: later) now
  | cons {stage now done : List Job} {later : List (List Job)} (all : now.Perm stage)
    (rest : Begins later done) : Begins (stage :: later) (now ++ done)

variable {stages later : List (List Job)} {stage now rest done : List Job} {job : Job}
  {key : ConstructKey}

theorem Linearises.begins (linear : Linearises stages done) : Begins stages done := by
  induction linear with
  | nil => exact .nil
  | cons permuted _ ih => exact .cons permuted ih

theorem Linearises.begins_append (linear : Linearises stages done) (part : Begins later now) :
    Begins (stages ++ later) (done ++ now) := by
  induction linear with
  | nil => exact part
  | cons permuted _ ih =>
    rw [List.cons_append, List.append_assoc]
    exact .cons permuted ih

namespace Begins

theorem tail (begins : Begins ([] :: stages) done) : Begins stages done := by
  cases begins with
  | nil => exact .nil
  | part some =>
    rw [(List.append_eq_nil_iff.mp some.eq_nil).1]
    exact .nil
  | cons all rest =>
    rw [all.eq_nil]
    exact rest

theorem mem_flatten (begins : Begins stages done) (member : job ∈ done) : job ∈ stages.flatten := by
  induction begins with
  | nil => cases member
  | part some =>
    rw [List.flatten_cons, List.mem_append]
    exact .inl (some.subset (List.mem_append_left _ member))
  | cons all _ ih =>
    rw [List.flatten_cons, List.mem_append]
    exact (List.mem_append.mp member).imp (all.subset ·) ih

end Begins

theorem Work.Follows.begins {work : Work} (follows : work.Follows stages done) :
    Begins stages done := by
  obtain ⟨past, before, stage, now, split, linear, permuted, rfl⟩ := follows
  have begins := linear.begins_append (.part permuted : Begins (stage :: work.later) now)
  rw [← split] at begins
  exact begins.tail

theorem Activity.Follows.begins {activity : Activity} (follows : activity.Follows stages done) :
    Begins stages done := by
  cases activity with
  | fresh =>
    cases follows
    exact .nil
  | working work | announcing _ work => exact Work.Follows.begins follows
  | closing status =>
    cases status with
    | deployed => exact Linearises.begins follows
    | planned | failed _ | cancelled =>
      obtain ⟨work, follows⟩ := follows
      exact follows.begins
  | «over» status =>
    cases status with
    | none =>
      cases follows
      exact .nil
    | some status =>
      cases status with
      | deployed => exact Linearises.begins follows
      | planned | failed _ | cancelled =>
        obtain ⟨work, follows⟩ := follows
        exact follows.begins

/-! ## The order of the jobs on a function -/

/-- Whether jobs that touch functions have their stages to themselves. -/
def Orderly (stages : List (List Job)) : Prop :=
  ∀ stage ∈ stages, stage.length ≤ 1 ∨ ∀ job ∈ stage, job.key.1 ≠ .function

theorem Orderly.tail (orderly : Orderly (stage :: stages)) : Orderly stages :=
  fun _ member => orderly _ (List.mem_cons_of_mem _ member)

/-- The jobs on a function are done in order, also in a stage that is broken off. -/
theorem Orderly.filter_stage (orderly : Orderly (stage :: later)) (some : (now ++ rest).Perm stage)
    (function : key.1 = .function) : now.filter (·.key = key) <+: stage.filter (·.key = key) := by
  rcases orderly stage List.mem_cons_self with single | other
  · have same : now ++ rest = stage := by
      match stage, single with
      | [], _ => exact some.eq_nil
      | [job], _ => exact List.perm_singleton.mp some
    rw [← same, List.filter_append]
    exact List.prefix_append _ _
  · have untouched : now.filter (·.key = key) = [] := by
      rw [List.filter_eq_nil_iff]
      intro job member same
      have inside := some.subset (List.mem_append_left _ member)
      exact other job inside (by rw [of_decide_eq_true same, function])
    rw [untouched]
    exact List.nil_prefix

theorem Orderly.filter_linear (orderly : Orderly stages) (linear : Linearises stages done)
    (function : key.1 = .function) :
    done.filter (·.key = key) = stages.flatten.filter (·.key = key) := by
  induction linear with
  | nil => rfl
  | @cons stage now later done permuted _ ih =>
    have first : now.filter (·.key = key) = stage.filter (·.key = key) := by
      have some : (now ++ []).Perm stage := by rwa [List.append_nil]
      refine (orderly.filter_stage some function).eq_of_length ?_
      exact (permuted.filter _).length_eq
    rw [List.flatten_cons, List.filter_append, List.filter_append, first, ih orderly.tail]

theorem Orderly.filter_begins (orderly : Orderly stages) (begins : Begins stages done)
    (function : key.1 = .function) :
    done.filter (·.key = key) <+: stages.flatten.filter (·.key = key) := by
  induction begins with
  | nil => exact List.nil_prefix
  | part some =>
    rw [List.flatten_cons, List.filter_append]
    exact (orderly.filter_stage some function).trans (List.prefix_append _ _)
  | @cons stage now done later all _ ih =>
    have some : (now ++ []).Perm stage := by rwa [List.append_nil]
    have first := (orderly.filter_stage some function).eq_of_length (all.filter _).length_eq
    rw [List.flatten_cons, List.filter_append, List.filter_append, first]
    exact List.prefix_append_right_inj _ |>.mpr (ih orderly.tail)

/-! ## Several components -/

/-- Whether a trace takes every one of several components through its stages in a given way. -/
structure Takes (through : List (List Job) → List Job → Prop) (parts : List (List (List Job)))
    (trace : List (Nat × Job)) : Prop where
  placed : ∀ e ∈ trace, e.1 < parts.length
  each : ∀ {place stages}, parts[place]? = some stages → through stages (jobsOf trace place)

/-- Whether components take turns to do all jobs of their stages. -/
abbrev Interleaves : List (List (List Job)) → List (Nat × Job) → Prop := Takes Linearises

variable {parts : List (List (List Job))} {trace : List (Nat × Job)} {place : Nat}

theorem Takes.begins (takes : Takes Linearises parts trace) : Takes Begins parts trace :=
  ⟨takes.placed, fun found => (takes.each found).begins⟩

/-- Whoever does a job has it in a stage. -/
theorem Takes.mem (takes : Takes Begins parts trace) (member : (place, job) ∈ trace) :
    ∃ stages, parts[place]? = some stages ∧ job ∈ stages.flatten := by
  have inside : place < parts.length := takes.placed _ member
  have found : parts[place]? = some parts[place] := List.getElem?_eq_getElem inside
  exact ⟨_, found, (takes.each found).mem_flatten (mem_jobsOf.mpr member)⟩

/-- All jobs are done when all components are through. -/
theorem Takes.mem_iff (takes : Takes Linearises parts trace) :
    job ∈ trace.map (·.2) ↔ ∃ stages ∈ parts, job ∈ stages.flatten := by
  constructor
  · intro member
    obtain ⟨⟨place, j⟩, listed, rfl⟩ := List.mem_map.mp member
    obtain ⟨stages, found, inside⟩ := takes.begins.mem listed
    exact ⟨stages, List.mem_of_getElem? found, inside⟩
  · rintro ⟨stages, listed, inside⟩
    obtain ⟨place, bound, rfl⟩ := List.getElem_of_mem listed
    have linear := takes.each (List.getElem?_eq_getElem bound)
    exact List.mem_map.mpr
      ⟨(place, job), mem_jobsOf.mp (linear.perm.symm.subset inside), rfl⟩

/-- Whether every function has one component that works on it, job by job. -/
structure Coordinated (parts : List (List (List Job))) : Prop where
  orderly : ∀ stages ∈ parts, Orderly stages
  owned : ∀ {i j : Nat} {s t : List (List Job)}, parts[i]? = some s → parts[j]? = some t →
    ∀ job ∈ s.flatten, ∀ job' ∈ t.flatten, job.key = job'.key → job.key.1 = .function → i = j

/-- The jobs on a function that a component works on are jobs of this component. -/
theorem Coordinated.filter_trace (coordinated : Coordinated parts) (takes : Takes Begins parts trace)
    (found : parts[place]? = some stages) (inside : job ∈ stages.flatten)
    (function : job.key.1 = .function) :
    (trace.map (·.2)).filter (·.key = job.key) =
      (jobsOf trace place).filter (·.key = job.key) := by
  rw [jobsOf, List.filter_map, List.filter_map, List.filter_filter]
  congr 1
  refine List.filter_congr fun e member => ?_
  obtain ⟨other, j⟩ := e
  obtain ⟨stages', found', inside'⟩ := takes.mem member
  rw [Bool.eq_iff_iff]
  simp only [Function.comp_apply, Bool.and_eq_true, decide_eq_true_eq]
  refine ⟨fun same => ⟨same, ?_⟩, And.left⟩
  exact coordinated.owned found' found j inside' job inside same (by rw [same, function])

/-- The jobs on a function are done in one and the same order by all who do them in full, and those
who are broken off do the first ones of them. -/
theorem Coordinated.exists_function_jobs (coordinated : Coordinated parts)
    (function : key.1 = .function) :
    ∃ jobs : List Job,
      (∀ trace, Interleaves parts trace → (trace.map (·.2)).filter (·.key = key) = jobs) ∧
      ∀ trace, Takes Begins parts trace → (trace.map (·.2)).filter (·.key = key) <+: jobs := by
  by_cases touched : ∃ (place : Nat) (stages : List (List Job)) (job : Job),
      parts[place]? = some stages ∧ job ∈ stages.flatten ∧ job.key = key
  · obtain ⟨place, stages, job, found, inside, rfl⟩ := touched
    have orderly := coordinated.orderly stages (List.mem_of_getElem? found)
    refine ⟨stages.flatten.filter (·.key = job.key), fun trace takes => ?_, fun trace takes => ?_⟩
    · rw [coordinated.filter_trace takes.begins found inside function]
      exact orderly.filter_linear (takes.each found) function
    · rw [coordinated.filter_trace takes found inside function]
      exact orderly.filter_begins (takes.each found) function
  · have nothing (trace : List (Nat × Job)) (takes : Takes Begins parts trace) :
        (trace.map (·.2)).filter (·.key = key) = [] := by
      rw [List.filter_eq_nil_iff]
      intro job member same
      obtain ⟨⟨place, j⟩, listed, rfl⟩ := List.mem_map.mp member
      obtain ⟨stages, found, inside⟩ := takes.mem listed
      exact touched ⟨place, stages, j, found, inside, of_decide_eq_true same⟩
    exact ⟨[], fun trace takes => nothing trace takes.begins,
      fun trace takes => nothing trace takes ▸ List.nil_prefix⟩

/-! ## The order leaves no trace -/

/-- Whether jobs that create one construct create it alike. -/
def Agree (jobs : Job → Prop) : Prop :=
  ∀ {job job' : Job} {key : ConstructKey} {record record' : ConstructRecord}, jobs job → jobs job' →
    job.creation? key = some record → job'.creation? key = some record' → record = record'

section Agreeing

variable {base : Constructs} {jobs jobs' : List Job}

/-- A construct has the same first record after all jobs that agree on it, in whatever order. -/
theorem firstRecord_congr (agree : Agree (· ∈ jobs)) (same : ∀ job, job ∈ jobs ↔ job ∈ jobs') :
    firstRecord base jobs key = firstRecord base jobs' key := by
  unfold firstRecord
  congr 1
  cases first : jobs.findSome? (Job.creation? key) with
  | none =>
    symm
    rw [List.findSome?_eq_none_iff] at first ⊢
    exact fun job member => first job ((same job).mpr member)
  | some record =>
    obtain ⟨job, member, created⟩ := List.exists_of_findSome?_eq_some first
    cases second : jobs'.findSome? (Job.creation? key) with
    | none =>
      rw [List.findSome?_eq_none_iff] at second
      rw [second job ((same job).mp member)] at created
      cases created
    | some record' =>
      obtain ⟨job', member', created'⟩ := List.exists_of_findSome?_eq_some second
      exact congrArg some (agree member ((same job').mpr member') created created')

/-- What is wired to a construct that is no function does not depend on the order. -/
theorem ConstructRecord.wired_congr (record : ConstructRecord) (other : key.1 ≠ .function)
    (same : ∀ job, job ∈ jobs ↔ job ∈ jobs') : record.wired key jobs = record.wired key jobs' := by
  have apart (uid : String) : (ConstructKind.function, uid) ≠ key := by
    rintro rfl
    exact other rfl
  have unsubscribed (jobs : List Job) : jobs.filterMap (Job.subscription? key) = [] := by
    refine List.filterMap_eq_nil_iff.mpr fun job _ => ?_
    unfold Job.subscription?
    split
    · exact if_neg (apart _)
    · rfl
  have unreported (jobs : List Job) : jobs.filterMap (Job.report? key) = [] := by
    refine List.filterMap_eq_nil_iff.mpr fun job _ => ?_
    unfold Job.report?
    split
    · exact if_neg (apart _)
    · rfl
  have publishers : (jobs.filterMap (Job.publisher? key)).foldl SortedSet.add record.publishers =
      (jobs'.filterMap (Job.publisher? key)).foldl SortedSet.add record.publishers :=
    SortedSet.foldl_add_congr _ fun uid => by simp only [List.mem_filterMap, same]
  simp only [wired, unsubscribed, unreported, publishers]

/-- What is wired to a function is wired once, however often a run is begun. -/
theorem ConstructRecord.wired_of_prefix (record : ConstructRecord) (first : jobs <+: jobs') :
    record.wired key (jobs ++ jobs') = record.wired key jobs' := by
  have publishers : ∀ uid, uid ∈ (jobs ++ jobs').filterMap (Job.publisher? key) ↔
      uid ∈ jobs'.filterMap (Job.publisher? key) := by
    intro uid
    rw [List.filterMap_append, List.mem_append]
    exact or_iff_right_of_imp ((first.filterMap _).subset ·)
  simp only [wired, SortedSet.foldl_add_congr record.publishers publishers]
  simp only [List.filterMap_append, foldl_appendNew_of_prefix _ (first.filterMap _)]

theorem firstRecord_of_prefix (base : Constructs) (key : ConstructKey) (first : jobs <+: jobs') :
    firstRecord base (jobs ++ jobs') key = firstRecord base jobs' key := by
  obtain ⟨rest, rfl⟩ := first
  rw [firstRecord_append, firstRecord, firstRecord, List.findSome?_append]
  cases base.find? key <;> cases jobs.findSome? (Job.creation? key) <;> simp

end Agreeing

/-- A run of all jobs leaves the same behind in whatever order components take turns, and also after
a run of some of them that was broken off. -/
theorem Coordinated.replay_eq {base : Constructs} {broken again whole : List (Nat × Job)}
    (coordinated : Coordinated parts)
    (agree : Agree fun job => ∃ stages ∈ parts, job ∈ stages.flatten) (named : Named base)
    (broken_off : Takes Begins parts broken) (all_again : Interleaves parts again)
    (all : Interleaves parts whole) (before : Replayable base (broken.map (·.2)))
    (after : Replayable (replay base (broken.map (·.2))) (again.map (·.2)))
    (alone : Replayable base (whole.map (·.2))) :
    replay (replay base (broken.map (·.2))) (again.map (·.2)) = replay base (whole.map (·.2)) := by
  have both := before.append after
  have joined : replay (replay base (broken.map (·.2))) (again.map (·.2)) =
      replay base (broken.map (·.2) ++ again.map (·.2)) := by
    simp only [replay, List.foldl_append]
  rw [joined]
  refine SortedMap.ext_find? fun key => ?_
  rw [both.find?_replay named, alone.find?_replay named]
  by_cases function : key.1 = .function
  · obtain ⟨jobs, full, part⟩ := coordinated.exists_function_jobs function
    have first := part _ broken_off
    have split : (broken.map (·.2) ++ again.map (·.2)).filter (·.key = key) =
        (broken.map (·.2)).filter (·.key = key) ++ jobs := by
      rw [List.filter_append, full _ all_again]
    rw [← firstRecord_filter, split, ← firstRecord_filter base (whole.map (·.2)), full _ all,
      firstRecord_of_prefix base key first]
    refine congrArg (fun f => Option.map f _) (funext fun record => ?_)
    rw [← ConstructRecord.wired_filter, split, record.wired_of_prefix first,
      ← record.wired_filter key (whole.map (·.2)), full _ all]
  · have same (job : Job) :
        job ∈ broken.map (·.2) ++ again.map (·.2) ↔ job ∈ whole.map (·.2) := by
      rw [List.mem_append, all_again.mem_iff, all.mem_iff]
      refine or_iff_right_of_imp fun member => ?_
      obtain ⟨⟨place, j⟩, listed, rfl⟩ := List.mem_map.mp member
      obtain ⟨stages, found, inside⟩ := broken_off.mem listed
      exact ⟨stages, List.mem_of_getElem? found, inside⟩
    have agreeing : Agree (· ∈ broken.map (·.2) ++ again.map (·.2)) := fun member member' =>
      agree (all.mem_iff.mp ((same _).mp member)) (all.mem_iff.mp ((same _).mp member'))
    rw [firstRecord_congr agreeing same]
    refine congrArg (fun f => Option.map f _) (funext fun record => ?_)
    exact record.wired_congr function same

/-- The record of a function is what the component that works on it makes of it, whatever else has
been done. -/
theorem Coordinated.find?_replay {base : Constructs} (coordinated : Coordinated parts)
    (takes : Takes Begins parts trace) (found : parts[place]? = some stages)
    (linear : Linearises stages (jobsOf trace place)) (inside : job ∈ stages.flatten)
    (function : job.key.1 = .function) (named : Named base)
    (replayable : Replayable base (trace.map (·.2))) :
    (replay base (trace.map (·.2))).find? job.key =
      (firstRecord base stages.flatten job.key).map (·.wired job.key stages.flatten) := by
  have orderly := coordinated.orderly stages (List.mem_of_getElem? found)
  have own : (trace.map (·.2)).filter (·.key = job.key) =
      stages.flatten.filter (·.key = job.key) := by
    rw [coordinated.filter_trace takes found inside function]
    exact orderly.filter_linear linear function
  rw [replayable.find?_replay named, ← firstRecord_filter, own, firstRecord_filter]
  refine congrArg (fun f => Option.map f _) (funext fun record => ?_)
  rw [← record.wired_filter, own, record.wired_filter]

end RestWiring

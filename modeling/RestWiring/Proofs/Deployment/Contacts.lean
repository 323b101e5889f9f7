import RestWiring.Proofs.Deployment.Calm

/-!
# What passes between a component and the backend

A component makes the calls of its jobs stage by stage. Since no call but that to tear down takes a
construct away, what the jobs of the earlier stages have provided is still there, and calls fail only
where the backend refuses them. A call that fails for good ends the stage of its job: after it, only
jobs of that stage are called for.
-/
namespace RestWiring

/-! ## Constructs stay -/

namespace Registry

variable {r : Registry} {call : Call} {key : ConstructKey} {cs cs' : Constructs} {answer : Answer}
  {deployed deployed' : Option Manifest}

theorem contains_store {record : ConstructRecord} (present : cs.contains key = true) :
    (store cs record).contains key = true :=
  SortedMap.contains_insert.mpr (.inr present)

/-- Only tearing down takes constructs away. -/
theorem effect_contains (kept : call ≠ .tearDown)
    (success : effect call cs deployed = .ok (answer, cs', deployed'))
    (present : cs.contains key = true) : cs'.contains key = true := by
  cases call with
  | create | getOrCreate =>
    rw [effect] at success
    split at success
    · cases success <;> exact present
    · cases success
      exact contains_store present
  | withRole =>
    obtain ⟨record, -, equal⟩ := bind_success_iff.mp success
    cases equal
    exact contains_store present
  | trigger | notify | grantPublish =>
    obtain ⟨_, -, success⟩ := bind_success_iff.mp success
    obtain ⟨record, -, equal⟩ := bind_success_iff.mp success
    cases equal
    exact contains_store present
  | compile | deploy | diff =>
    cases success
    exact present
  | tearDown => exact absurd rfl kept

theorem perform_contains (kept : call ≠ .tearDown) (present : r.constructs.contains key = true) :
    (r.perform call).2.constructs.contains key = true := by
  rcases perform_inv r call with ⟨_, _, failed⟩ | ⟨_, _, _, served, effect⟩
  · rw [failed]
    exact present
  · rw [served]
    exact effect_contains kept effect present

end Registry

namespace Job

variable {job : Job} {r r' : Registry} {key : ConstructKey} {answer : Answer} {e : ExecutorError}

theorem perform_snd (job : Job) (r : Registry) : (job.perform r).2 = (r.perform job.call).2 := by
  cases job <;> rfl

theorem call_ne_tearDown (job : Job) : job.call ≠ .tearDown := by
  rcases job with ⟨⟨kind, spec⟩⟩ | f | s
  · cases kind <;> exact nofun
  · exact nofun
  · cases s <;> exact nofun

theorem perform_contains (job : Job) (present : r.constructs.contains key = true) :
    (job.perform r).2.constructs.contains key = true := by
  rw [perform_snd]
  exact Registry.perform_contains job.call_ne_tearDown present

/-- What a job provides is there when it has succeeded. -/
theorem contains_of_provides (performed : job.perform r = (.ok answer, r'))
    (provided : job.provides = some key) : r'.constructs.contains key = true := by
  obtain ⟨-, rfl⟩ := perform_success performed
  obtain ⟨spec, applied⟩ := apply_provides provided r.constructs
  rw [applied]
  split
  · assumption
  · exact SortedMap.contains_insert.mpr (.inl rfl)

/-- A job that finds what it needs fails only where the backend refuses its call. -/
theorem error_of_present (performed : job.perform r = (.error e, r'))
    (present : ∀ key ∈ job.needs, r.constructs.contains key = true) :
    ∃ message retryable, e = .backend job.call.logged.name message retryable := by
  cases struck : Registry.useFailure job.call.logged.name r.failures with
  | some strike =>
    rw [perform_of_strike struck] at performed
    cases performed
    exact ⟨_, _, rfl⟩
  | none =>
    obtain ⟨answer, success⟩ := perform_succeeds struck present
    rw [success] at performed
    cases performed

end Job

/-! ## Histories -/

/-- Whether everything in a history is related to what came before it. -/
def Whenever {α : Type} (relates : List α → α → Prop) (history : List α) : Prop :=
  ∀ before a, before ++ [a] <+: history → relates before a

section Whenever

variable {α : Type} {relates : List α → α → Prop} {history : List α} {a : α}

theorem Whenever.nil : Whenever relates [] := by
  intro before a first
  simp at first

theorem Whenever.snoc (earlier : Whenever relates history) (last : relates history a) :
    Whenever relates (history ++ [a]) := by
  intro before b first
  rcases List.prefix_concat_iff.mp first with equal | first
  · obtain ⟨same, single⟩ := List.append_inj' equal rfl
    rw [same, List.singleton_inj.mp single]
    exact last
  · exact earlier before b first

end Whenever

/-! ## One component -/

variable {settings : DeploymentSettings} {index place : Nat} {stages : List (List Job)}
  {done stage : List Job} {work : Work} {activity activity' : Activity} {w w' : World}
  {contact : Option Contact} {job other : Job} {key : ConstructKey}

/-- Whether contact is made in order: for a job that comes next, after a failure for good only for jobs
of the same stage, and never in want of a construct. -/
structure Contact.Proper (stages : List (List Job)) (before : List Contact) (contact : Contact) :
    Prop where
  next : ∃ work progress, Work.Follows work stages (before.filterMap success?) ∧
    (contact.job, progress) ∈ work.current
  held : ∀ job, contact = .issued job → ∀ failed e, .failed failed e ∈ before →
    ∃ stage ∈ stages, stage.length ≠ 1 ∧ failed ∈ stage ∧ job ∈ stage
  refused : ∀ job e, contact = .repeated job e ∨ contact = .failed job e →
    ∃ construct message retryable, e = .backend construct message retryable

theorem Contact.success?_eq_some {c : Contact} : c.success? = some job ↔ c = .succeeded job := by
  cases c <;> simp [success?]

/-- Two entries that work has listed belong to one stage. -/
theorem Work.Follows.shared {progress progress' : JobProgress} (follows : work.Follows stages done)
    (listed : (job, progress) ∈ work.current) (listed' : (other, progress') ∈ work.current)
    (different : progress ≠ progress') :
    ∃ stage ∈ stages, stage.length ≠ 1 ∧ job ∈ stage ∧ other ∈ stage := by
  obtain ⟨past, before, stage, now, split, -, permuted, -⟩ := follows
  have inside {j : Job} {p : JobProgress} (member : (j, p) ∈ work.current) : j ∈ stage :=
    permuted.subset (List.mem_append_right _ (List.mem_map_of_mem member))
  have among : stage ∈ [] :: stages := by simp [split]
  have listed_stage : stage ∈ stages :=
    (List.mem_cons.mp among).resolve_left (List.ne_nil_of_mem (inside listed))
  refine ⟨stage, listed_stage, fun single => ?_, inside listed, inside listed'⟩
  have length := permuted.length_eq
  rw [single, List.length_append, List.length_map] at length
  have nonempty := List.length_pos_of_mem listed
  obtain ⟨entry, alone⟩ := List.length_eq_one_iff.mp (show work.current.length = 1 by omega)
  rw [alone, List.mem_singleton] at listed listed'
  exact different (congrArg Prod.snd (listed.trans listed'.symm))

theorem statusOf_ne_deployed (e : OrchestrationError) : Task.statusOf e ≠ .deployed := by
  cases e <;> exact nofun

section Lists

variable {α : Type} {as : List α} {a b c : α}

theorem mem_set_of_mem (member : a ∈ as) (found : as[place]? = some b) (different : a ≠ b) :
    a ∈ as.set place c := by
  obtain ⟨i, here⟩ := List.getElem?_of_mem member
  have elsewhere : place ≠ i := by
    rintro rfl
    exact different (Option.some.inj (here.symm.trans found))
  exact List.mem_of_getElem? ((List.getElem?_set_ne elsewhere).trans here)

theorem mem_eraseIdx_of_mem (member : a ∈ as) (found : as[place]? = some b) (different : a ≠ b) :
    a ∈ as.eraseIdx place := by
  obtain ⟨inside, rfl⟩ := List.getElem?_eq_some_iff.mp found
  have taken := (List.getElem_cons_eraseIdx_perm inside).symm.subset member
  exact (List.mem_cons.mp taken).resolve_left different

end Lists

namespace Activity

/-! ### Failures for good -/

/-- Whether a job that has failed for good keeps a component from going on to another stage. -/
def HeldBy (job : Job) : Activity → Prop
  | .working work | .announcing _ work => ∃ e, (job, .failed e) ∈ work.current
  | .closing status | .over (some status) => status ≠ .deployed
  | .fresh | .over none => False

theorem HeldBy.ofWork (held : ∃ e, (job, .failed e) ∈ work.current) : (ofWork work).HeldBy job := by
  unfold Activity.ofWork
  split
  · exact statusOf_ne_deployed _
  · exact held

theorem HeldBy.fail {e : OrchestrationError}
    (held : ∃ e', (job, .failed e') ∈ work.current.set place (other, .failed e)) :
    (fail place other e work).HeldBy job := by
  unfold Activity.fail
  split
  · exact .ofWork held
  · exact statusOf_ne_deployed e

theorem HeldBy.step (held : activity.HeldBy job)
    (step : Step settings index stages activity w contact activity' w') : activity'.HeldBy job := by
  cases step with
  | breakDown | start => exact held.elim
  | withhold listed | giveUp listed =>
    obtain ⟨e, member⟩ := held
    exact .fail ⟨e, mem_set_of_mem member listed nofun⟩
  | issue listed | again listed =>
    obtain ⟨e, member⟩ := held
    exact ⟨e, mem_set_of_mem member listed nofun⟩
  | succeed listed =>
    obtain ⟨e, member⟩ := held
    have kept := mem_eraseIdx_of_mem member listed nofun
    unfold settle
    split
    · exact ⟨e, kept⟩
    · exact .ofWork ⟨e, kept⟩
  | announce => exact .ofWork held
  | enter | finish =>
    obtain ⟨e, ⟨⟩⟩ := held
  | close => exact held

/-- Whether every failure that a component reports or will report is accounted for, and so is its task
breaking down. -/
def Blames (blamed : OrchestrationError → Prop) (broken : Prop) : Activity → Prop
  | .working work | .announcing _ work =>
    ∀ x ∈ work.current, ∀ e, x.2 = .failed e → e = .cancelled ∨ blamed e
  | .closing (.failed e) | .over (some (.failed e)) => blamed e
  | .over none => broken
  | _ => True

section Blames

variable {blamed blamed' : OrchestrationError → Prop} {broken : Prop} {e : OrchestrationError}

theorem Blames.mono (blames : activity.Blames blamed broken) (more : ∀ e, blamed e → blamed' e) :
    activity.Blames blamed' broken := by
  cases activity with
  | fresh => trivial
  | working | announcing => exact fun x member e failed => (blames x member e failed).imp_right (more e)
  | closing status => cases status <;> first | trivial | exact more _ blames
  | «over» status =>
    cases status with
    | none => exact blames
    | some status => cases status <;> first | trivial | exact more _ blames

theorem Blames.unfinished (known : e = .cancelled ∨ blamed e) :
    (closing (Task.statusOf e)).Blames blamed broken := by
  cases e with
  | cancelled => trivial
  | _ => exact known.resolve_left nofun

theorem Blames.ofWork (blames : ∀ x ∈ work.current, ∀ e, x.2 = .failed e → e = .cancelled ∨ blamed e) :
    (ofWork work).Blames blamed broken := by
  unfold Activity.ofWork
  split
  · rename_i job e rest listed
    exact .unfinished (blames (job, .failed e) (by simp [listed]) e rfl)
  · exact blames

theorem Blames.fail (blames : (working work).Blames blamed broken) (known : e = .cancelled ∨ blamed e) :
    (fail place job e work).Blames blamed broken := by
  unfold Activity.fail
  split
  · refine .ofWork fun x member e' failed => ?_
    rcases List.mem_or_eq_of_mem_set member with member | rfl
    · exact blames x member e' failed
    · cases failed
      exact known
  · exact .unfinished known

theorem Blames.step (blames : activity.Blames blamed broken)
    (step : Step settings index stages activity w contact activity' w')
    (own : ∀ job e, contact = some (.failed job e) → blamed (.executor job.operation e))
    (breaks : settings.breaksDown = some index → broken) : activity'.Blames blamed broken := by
  cases step with
  | breakDown down => exact breaks down
  | start =>
    rintro x ⟨⟩
  | withhold => exact blames.fail (.inl rfl)
  | giveUp => exact blames.fail (.inr (own _ _ rfl))
  | issue | again =>
    intro x member e failed
    rcases List.mem_or_eq_of_mem_set member with member | rfl
    · exact blames x member e failed
    · cases failed
  | @succeed work _ place =>
    have others : ∀ x ∈ work.current.eraseIdx place, ∀ e, x.2 = .failed e →
        e = .cancelled ∨ blamed e :=
      fun x member => blames x (List.mem_of_mem_eraseIdx member)
    unfold settle
    split
    · exact others
    · exact .ofWork others
  | announce => exact .ofWork blames
  | enter =>
    intro x member e failed
    obtain ⟨job, -, rfl⟩ := List.mem_map.mp member
    cases failed
  | finish => trivial
  | @close _ status => cases status <;> exact blames

end Blames

/-- A task that has broken down takes no steps. -/
theorem Step.running (step : Step settings index stages activity w contact activity' w') :
    activity ≠ .over none := by
  cases step <;> exact nofun

/-! ### What is there -/

/-- No turn takes a construct away. -/
theorem Step.contains (step : Step settings index stages activity w contact activity' w')
    (present : w.registry.constructs.contains key = true) :
    w'.registry.constructs.contains key = true := by
  cases step with
  | @succeed _ _ _ _ job _ _ _ performed | @again _ _ _ _ job _ _ _ performed
  | @giveUp _ _ _ _ job _ _ _ performed =>
    have kept := job.perform_contains present
    rwa [performed] at kept
  | _ => exact present

/-- After a turn that does a job, there is what the job provides. -/
theorem Step.contains_of_provides
    (step : Step settings index stages activity w (some (.succeeded job)) activity' w')
    (provided : job.provides = some key) : w'.registry.constructs.contains key = true := by
  cases step with
  | succeed _ performed => exact Job.contains_of_provides performed provided

/-! ### Contacts in order -/

/-- Whether a component has kept to its stages, with `mine` as what has passed between it and the
backend, until its task breaks down. A failure comes from one of its calls, unless it has not been
planned. -/
structure Keeps (stages : List (List Job)) (unplanned broken : Prop) (mine : List Contact)
    (activity : Activity) : Prop where
  follows : activity ≠ .over none → activity.Follows stages (mine.filterMap Contact.success?)
  held : activity ≠ .over none → ∀ job e, .failed job e ∈ mine → activity.HeldBy job
  blames : activity.Blames
    (fun e => unplanned ∨ ∃ job e', .failed job e' ∈ mine ∧ e = .executor job.operation e') broken
  proper : Whenever (Contact.Proper stages) mine

variable {unplanned broken : Prop} {mine : List Contact}

/-- The contact that a turn makes is in order. -/
theorem Keeps.proper_step {c : Contact} (keeps : activity.Keeps stages unplanned broken mine)
    (supplied : Supplied stages)
    (present : ∀ job, .succeeded job ∈ mine → ∀ key, job.provides = some key →
      w.registry.constructs.contains key = true)
    (step : Step settings index stages activity w (some c) activity' w') :
    c.Proper stages mine := by
  -- What a listed job needs has been provided by a job that is done.
  have found {work : Work} {place : Nat} {job : Job} {progress : JobProgress}
      (follows : work.Follows stages (mine.filterMap Contact.success?))
      (listed : work.current[place]? = some (job, progress)) :
      ∀ key ∈ job.needs, w.registry.constructs.contains key = true := by
    intro key needed
    obtain ⟨j, earlier, provided⟩ :=
      follows.supplied supplied (List.mem_of_getElem? listed) key needed
    obtain ⟨contact, member, success⟩ := List.mem_filterMap.mp earlier
    exact present j (Contact.success?_eq_some.mp success ▸ member) key provided
  have follows := keeps.follows step.running
  have held := keeps.held step.running
  cases step with
  | issue listed =>
    refine ⟨⟨_, _, follows, List.mem_of_getElem? listed⟩, fun job same failed e member => ?_, nofun⟩
    cases same
    obtain ⟨e', failure⟩ := held failed e member
    exact follows.shared failure (List.mem_of_getElem? listed) nofun
  | succeed listed => exact ⟨⟨_, _, follows, List.mem_of_getElem? listed⟩, nofun, nofun⟩
  | again listed performed | giveUp listed performed =>
    refine ⟨⟨_, _, follows, List.mem_of_getElem? listed⟩, nofun, fun job e same => ?_⟩
    obtain ⟨message, retryable, refused⟩ := Job.error_of_present performed (found follows listed)
    rcases same with same | same <;> cases same
    exact ⟨_, message, retryable, refused⟩

/-- When its task breaks down, a component has kept to its stages. -/
theorem Keeps.breakDown (keeps : activity.Keeps stages unplanned broken mine) (down : broken) :
    (Activity.over none).Keeps stages unplanned broken mine :=
  ⟨absurd rfl, absurd rfl, down, keeps.proper⟩

/-- A failure that a component comes to blame in a step is that of its own call. -/
theorem Blames.step_own
    (blames : activity.Blames
      (fun e => unplanned ∨ ∃ job e', .failed job e' ∈ mine ∧ e = .executor job.operation e') broken)
    (step : Step settings index stages activity w contact activity' w')
    (breaks : settings.breaksDown = some index → broken) :
    activity'.Blames (fun e => unplanned ∨ ∃ job e', .failed job e' ∈ mine ++ contact.toList ∧
      e = .executor job.operation e') broken := by
  refine Blames.step (blames.mono fun e known => ?_) step (fun job e failed => ?_) breaks
  · refine known.imp_right ?_
    rintro ⟨job, e', member, equal⟩
    exact ⟨job, e', List.mem_append_left _ member, equal⟩
  · exact .inr ⟨job, e, List.mem_append_right _ (failed ▸ List.mem_singleton_self _), rfl⟩

/-- A component keeps to its stages whatever turn it takes. -/
theorem Keeps.step (keeps : activity.Keeps stages unplanned broken mine) (supplied : Supplied stages)
    (present : ∀ job, .succeeded job ∈ mine → ∀ key, job.provides = some key →
      w.registry.constructs.contains key = true)
    (breaks : settings.breaksDown = some index → broken)
    (step : Step settings index stages activity w contact activity' w') :
    activity'.Keeps stages unplanned broken (mine ++ contact.toList) where
  follows := by
    intro
    rw [List.filterMap_append]
    exact step.follows (keeps.follows step.running)
  held := by
    intro _ job e member
    rcases List.mem_append.mp member with earlier | last
    · exact (keeps.held step.running job e earlier).step step
    · cases step with
      | giveUp listed =>
        cases List.mem_singleton.mp last
        obtain ⟨inside, -⟩ := List.getElem?_eq_some_iff.mp listed
        exact .fail ⟨_, List.mem_set inside _⟩
      | issue | succeed | again => cases List.mem_singleton.mp last
      | _ => cases last
  blames := keeps.blames.step_own step breaks
  proper := by
    cases contact with
    | none => exact (List.append_nil mine).symm ▸ keeps.proper
    | some c => exact keeps.proper.snoc (keeps.proper_step supplied present step)

end Activity

end RestWiring

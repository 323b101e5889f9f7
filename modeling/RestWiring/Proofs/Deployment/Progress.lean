import RestWiring.Proofs.Deployment.Schedules

/-!
# Every deployment ends

A task that is not over can take a turn, and every turn leaves it with fewer turns to take: an attempt
that fails uses up one of the attempts that the job has, and what is done is not done again. So a
deployment neither stops short nor runs for ever: whatever turns it has taken, further turns take it to
its end, and their number is bounded beforehand.
-/
namespace RestWiring

variable {settings : DeploymentSettings} {index place limit : Nat} {stages : List (List Job)}
  {work : Work} {activity activity' : Activity} {w w' : World} {job : Job}
  {progress : JobProgress} {x y : Job × JobProgress} {contact : Option Contact}

/-! ## Sums over lists -/

section Sums

variable {α : Type} {as : List α} {a b : α} (f : α → Nat)

theorem sum_eraseIdx (found : as[place]? = some a) :
    f a + ((as.eraseIdx place).map f).sum = (as.map f).sum := by
  obtain ⟨inside, rfl⟩ := List.getElem?_eq_some_iff.mp found
  rw [← List.sum_cons, ← List.map_cons]
  exact ((List.getElem_cons_eraseIdx_perm inside).map f).sum_nat

theorem sum_set (found : as[place]? = some a) :
    f a + ((as.set place b).map f).sum = f b + (as.map f).sum := by
  obtain ⟨inside, -⟩ := List.getElem?_eq_some_iff.mp found
  have put := ((List.set_perm_cons_eraseIdx inside b).map f).sum_nat
  rw [List.map_cons, List.sum_cons] at put
  have taken := sum_eraseIdx f found
  omega

end Sums

/-! ## The turns that are left -/

/-- How many turns a job that is not done can still take. -/
def JobProgress.turns (limit : Nat) : JobProgress → Nat
  | .ready attempt => 2 * (limit - attempt) + 3
  | .underway attempt => 2 * (limit - attempt) + 2
  | .failed _ => 0

/-- How many turns are left of work, down to the last one that closes it. -/
def Work.turns (limit : Nat) (work : Work) : Nat :=
  (work.current.map (·.2.turns limit)).sum +
    (work.later.map fun stage => stage.length * (JobProgress.ready 1).turns limit + 1).sum + 2

/-- How many turns a task can still take. -/
def Activity.turns (limit : Nat) (stages : List (List Job)) : Activity → Nat
  | .fresh => Work.turns limit ⟨false, [], stages⟩ + 1
  | .working work => work.turns limit
  | .announcing _ work => work.turns limit + 1
  | .closing _ => 1
  | .over _ => 0

theorem Work.turns_erase (limit : Nat) (listed : work.current[place]? = some x) :
    x.2.turns limit + Work.turns limit { work with current := work.current.eraseIdx place } =
      work.turns limit := by
  have taken := sum_eraseIdx (fun x : Job × JobProgress => x.2.turns limit) listed
  simp only [turns] at taken ⊢
  omega

theorem Work.turns_set (limit : Nat) (y : Job × JobProgress) (listed : work.current[place]? = some x) :
    x.2.turns limit + Work.turns limit { work with current := work.current.set place y } =
      y.2.turns limit + work.turns limit := by
  have put := sum_set (b := y) (fun x : Job × JobProgress => x.2.turns limit) listed
  simp only [turns] at put ⊢
  omega

namespace Activity

theorem turns_ofWork_le (limit : Nat) (stages : List (List Job)) (work : Work) : (ofWork work).turns limit stages ≤ work.turns limit := by
  unfold ofWork
  split
  · simp only [turns, Work.turns]
    omega
  · exact Nat.le_refl _

theorem turns_fail_lt (listed : work.current[place]? = some (job, progress))
    (some_left : 0 < progress.turns limit) (e : OrchestrationError) :
    (fail place job e work).turns limit stages < work.turns limit := by
  unfold fail
  split
  · have put := Work.turns_set limit (job, .failed e) listed
    have held := turns_ofWork_le limit stages
      { work with current := work.current.set place (job, .failed e) }
    have none_left : (JobProgress.failed e).turns limit = 0 := rfl
    dsimp only at put
    omega
  · have taken := Work.turns_erase limit listed
    simp only [turns, Work.turns] at taken ⊢
    omega

/-- Every turn leaves fewer turns to take. -/
theorem Step.turns (step : Step settings index stages activity w contact activity' w') :
    activity'.turns settings.retry.maxAttempts stages <
      activity.turns settings.retry.maxAttempts stages := by
  cases step with
  | breakDown => exact Nat.succ_pos _
  | start => exact Nat.lt_succ_self _
  | withhold listed => exact turns_fail_lt listed (Nat.succ_pos _) _
  | @issue _ _ _ attempt job listed =>
    have put := Work.turns_set settings.retry.maxAttempts (job, .underway attempt) listed
    simp only [JobProgress.turns] at put
    simp only [turns]
    omega
  | succeed listed =>
    have erased := Work.turns_erase settings.retry.maxAttempts listed
    simp only [JobProgress.turns] at erased
    unfold settle
    split
    · simp only [turns]
      omega
    · refine Nat.lt_of_le_of_lt (turns_ofWork_le _ _ _) ?_
      simp only [turns]
      omega
  | @again _ _ _ attempt job _ _ listed _ repeated =>
    simp only [RetryPolicy.repeats, Bool.and_eq_true, decide_eq_true_eq] at repeated
    have put := Work.turns_set settings.retry.maxAttempts (job, .ready (attempt + 1)) listed
    simp only [JobProgress.turns] at put
    simp only [turns]
    omega
  | giveUp listed => exact turns_fail_lt listed (Nat.succ_pos _) _
  | announce => exact Nat.lt_succ_of_le (turns_ofWork_le _ _ _)
  | enter =>
    simp only [turns, Work.turns, List.map_map, Function.comp_def, List.map_const',
      List.sum_replicate_nat, List.map_nil, List.sum_nil, List.map_cons, List.sum_cons]
    omega
  | finish => simp [turns, Work.turns]
  | close => exact Nat.one_pos

/-! ## No task gets stuck -/

/-- Whether no failure that should have ended a stage is left in front of it. -/
def Poised : Activity → Prop
  | .working work => Leads work.current
  | _ => True

theorem Poised.ofWork (work : Work) : (ofWork work).Poised := by
  unfold Activity.ofWork
  split
  · trivial
  · rename_i ahead
    intro job e first
    obtain ⟨rest, listed⟩ := List.head?_eq_some_iff.mp first
    exact ahead job e rest listed

theorem Poised.fail (place : Nat) (job : Job) (e : OrchestrationError) (work : Work) :
    (fail place job e work).Poised := by
  unfold Activity.fail
  split
  · exact .ofWork _
  · trivial

theorem Leads.set {current : List (Job × JobProgress)} (leads : Leads current)
    (unfailed : ∀ e, progress ≠ .failed e) : Leads (current.set place (job, progress)) := by
  intro job' e first
  cases current with
  | nil => cases first
  | cons x rest =>
    cases place with
    | zero =>
      cases first
      exact unfailed e rfl
    | succ place => exact leads job' e first

theorem Poised.step (poised : activity.Poised)
    (step : Step settings index stages activity w contact activity' w') : activity'.Poised := by
  cases step with
  | start => rintro job e ⟨⟩
  | withhold | giveUp => exact .fail ..
  | issue | again => exact poised.set (by simp)
  | succeed =>
    unfold settle
    split
    · trivial
    · exact .ofWork _
  | announce => exact .ofWork _
  | enter => exact Cascade.leads_ofJobs _
  | breakDown | finish | close => trivial

/-- A task that is not over can take a turn. -/
theorem Poised.exists_turn (poised : activity.Poised) (unended : ∀ status, activity ≠ .over status)
    (settings : DeploymentSettings) (index : Nat) (stages : List (List Job)) (w : World) :
    ∃ turn result, activity.take? settings index stages turn w = some result := by
  cases activity with
  | fresh =>
    refine ⟨.start, ?_⟩
    simp only [Activity.take?]
    split
    · exact ⟨_, rfl⟩
    · exact ⟨_, rfl⟩
  | working work =>
    obtain ⟨orderly, current, later⟩ := work
    cases current with
    | nil =>
      refine ⟨.advance, ?_⟩
      cases later with
      | nil => exact ⟨_, rfl⟩
      | cons => exact ⟨_, rfl⟩
    | cons x rest =>
      obtain ⟨job, progress⟩ := x
      cases progress with
      | ready attempt =>
        refine ⟨.issue 0, ?_⟩
        simp only [Activity.take?, issue?, List.getElem?_cons_zero]
        split
        · exact ⟨_, rfl⟩
        · exact ⟨_, rfl⟩
      | underway attempt =>
        refine ⟨.complete 0, ?_⟩
        simp only [Activity.take?, complete?, List.getElem?_cons_zero]
        split
        · split
          · exact ⟨_, rfl⟩
          · exact ⟨_, rfl⟩
        · split
          · exact ⟨_, rfl⟩
          · exact ⟨_, rfl⟩
      | failed e => exact absurd rfl (poised job e)
  | announcing event work => exact ⟨.announce, _, rfl⟩
  | closing status => exact ⟨.close, _, rfl⟩
  | «over» status => exact absurd rfl (unended status)

end Activity

/-! ## A deployment -/

namespace Deployment

variable {d d' : Deployment} {turns : List Turn} {channel : String} {g : OrchestrationGraph}

/-- How many turns the tasks of a deployment can still take. -/
def turnsLeft (limit : Nat) (d : Deployment) : Nat :=
  (d.runners.map fun r => r.activity.turns limit r.stages).sum

theorem take?_turnsLeft {place : Nat} {turn : TaskTurn}
    (taken : d.take? settings (.task place turn) = some d') :
    d'.turnsLeft settings.retry.maxAttempts < d.turnsLeft settings.retry.maxAttempts := by
  obtain ⟨r, activity, world, found, step, rfl⟩ := take?_task taken
  have fewer := (Activity.step_of_take? step).turns
  have put := sum_set (b := { r with activity })
    (fun r : Runner => r.activity.turns settings.retry.maxAttempts r.stages) found
  simp only [turnsLeft] at put ⊢
  omega

/-- The number of turns that tasks take is bounded. -/
theorem takeAll?_turnsLeft (taken : d.takeAll? settings turns = some d') :
    (turns.filter (· ≠ .cancel)).length + d'.turnsLeft settings.retry.maxAttempts ≤
      d.turnsLeft settings.retry.maxAttempts := by
  induction turns generalizing d with
  | nil =>
    cases taken
    simp
  | cons turn turns ih =>
    obtain ⟨next, first, rest⟩ := Option.bind_eq_some_iff.mp taken
    have others := ih rest
    cases turn with
    | cancel =>
      cases first
      simpa [turnsLeft] using others
    | task place turn =>
      have fewer := take?_turnsLeft first
      simp only [ne_eq, reduceCtorEq, not_false_eq_true, decide_true, List.filter_cons_of_pos,
        List.length_cons]
      simp only [ne_eq] at others
      omega

/-- Whether no component of a deployment is stuck. -/
def Poised (d : Deployment) : Prop := ∀ r ∈ d.runners, r.activity.Poised

theorem Poised.begin (settings : DeploymentSettings) (channel : String) (g : OrchestrationGraph)
    (w : World) : (Deployment.begin settings channel g w).Poised := by
  intro r member
  obtain ⟨⟨index, component, result⟩, -, rfl⟩ := List.mem_map.mp member
  cases result <;> trivial

theorem Poised.take? {turn : Turn} (poised : d.Poised) (taken : d.take? settings turn = some d') :
    d'.Poised := by
  cases turn with
  | cancel =>
    cases taken
    exact poised
  | task place turn =>
    obtain ⟨r, activity, world, found, step, rfl⟩ := take?_task taken
    intro r' member
    rcases List.mem_or_eq_of_mem_set member with member | rfl
    · exact poised r' member
    · exact (poised r (List.mem_of_getElem? found)).step (Activity.step_of_take? step)

theorem Poised.takeAll? (poised : d.Poised) (taken : d.takeAll? settings turns = some d') :
    d'.Poised := by
  exact takeAll?_keeps Poised taken poised fun _ first earlier => earlier.take? first

/-- While a task is not over, a turn can be taken. -/
theorem Poised.exists_turn (poised : d.Poised) (settings : DeploymentSettings)
    (unended : ∃ r ∈ d.runners, ∀ status, r.activity ≠ .over status) :
    ∃ place turn d', d.take? settings (.task place turn) = some d' := by
  obtain ⟨r, member, unended⟩ := unended
  obtain ⟨place, found⟩ := List.getElem?_of_mem member
  obtain ⟨turn, ⟨activity, world⟩, step⟩ :=
    (poised r member).exists_turn unended settings r.index r.stages d.world
  refine ⟨place, turn, ⟨d.runners.set place { r with activity }, world⟩, ?_⟩
  simp [Deployment.take?, Runner.take?, found, step]

/-- Further turns take a deployment to its end. -/
theorem Poised.exists_end (poised : d.Poised) (settings : DeploymentSettings)
    (deploymentId channel : String) :
    ∃ d' outcome, Reaches settings d d' ∧ d'.outcome? settings deploymentId channel = some outcome := by
  generalize bound : d.turnsLeft settings.retry.maxAttempts = n
  induction n using Nat.strong_induction_on generalizing d with
  | _ n ih =>
    by_cases unended : ∃ r ∈ d.runners, ∀ status, r.activity ≠ .over status
    · obtain ⟨place, turn, next, taken⟩ := poised.exists_turn settings unended
      obtain ⟨d', outcome, reaches, ended⟩ :=
        ih _ (bound ▸ take?_turnsLeft taken) (poised.take? taken) rfl
      have first : Reaches settings d next :=
        ⟨[.task place turn], by simp, by simp [Deployment.takeAll?, taken]⟩
      exact ⟨d', outcome, first.trans reaches, ended⟩
    · have ended : ∃ tasks, d.runners.mapM Runner.ended? = some tasks := by
        refine mapM_eq_some fun r member => ?_
        by_contra running
        refine unended ⟨r, member, fun status closed => running ?_⟩
        exact ⟨⟨r.index, r.plan, status⟩, by rw [Runner.ended?, closed]⟩
      obtain ⟨tasks, ended⟩ := ended
      exact ⟨d, _, .refl settings d, by rw [outcome?, ended]; rfl⟩

/-- Whatever turns have been taken, further ones take the deployment to its end. -/
theorem exists_endsIn {w : World} (taken : (begin settings channel g w).takeAll? settings turns = some d)
    (deploymentId : String) :
    ∃ more outcome, .cancel ∉ more ∧
      EndsIn settings deploymentId channel g w (turns ++ more) outcome := by
  have poised := (Poised.begin settings channel g w).takeAll? taken
  obtain ⟨d', outcome, ⟨more, uncancelled, rest⟩, ended⟩ :=
    poised.exists_end settings deploymentId channel
  exact ⟨more, outcome, uncancelled, d', by rw [takeAll?_append, taken, Option.bind_some, rest], ended⟩

end Deployment

end RestWiring

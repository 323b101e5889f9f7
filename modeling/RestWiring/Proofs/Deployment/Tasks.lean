import RestWiring.Proofs.Deployment.Attempts

/-!
# Tasks as turns

A task goes from stage to stage until it has to wait or is over, by turns of its component. A task
that waits has an attempt to make, and every round takes away one of the attempts that it may make.
-/
namespace RestWiring

open Relation

variable {settings : DeploymentSettings} {index time : Nat} {stages later : List (List Job)}
  {w w' : World}
  {current : Stage} {jobs : List (Job × JobProgress)}

namespace Cascade

/-- The most attempts that a cascade may still make. -/
def weight (settings : DeploymentSettings) (c : Cascade) : Nat :=
  weightOf settings c.current.unfinished + c.later.flatten.length * (settings.retry.maxAttempts + 1)

theorem weightOf_ofJobs (settings : DeploymentSettings) (stage : List Job) :
    weightOf settings (Stage.ofJobs stage).unfinished ≤
      stage.length * (settings.retry.maxAttempts + 1) := by
  induction stage with
  | nil => simp [Stage.ofJobs, weightOf]
  | cons job stage ih =>
    simp only [Stage.ofJobs, weightOf, List.map_cons, List.sum_cons, List.length_cons,
      Unfinished.weight, Attempt.weight,
      Nat.add_mul] at ih ⊢
    omega

/-- The jobs of a stage that has just begun are listed for their first attempts. -/
theorem listed_ofJobs (stage : List Job) :
    List.Forall₂ Unfinished.Listed (Stage.ofJobs stage).unfinished
      (stage.map fun job => (job, .ready 1)) := by
  induction stage with
  | nil => exact .nil
  | cons job stage ih => exact .cons (.waiting { job }) ih

theorem leads_ofJobs (stage : List Job) :
    Activity.Leads (stage.map fun job => (job, .ready 1)) := by
  intro job e head
  cases stage <;> cases head

/-- A cascade goes on by turns that lead to what is left of it, of less weight than before if an
attempt was due, or to its failure. -/
theorem proceed_cases (settings : DeploymentSettings) (index time : Nat)
    (stages later : List (List Job))
    (listed : List.Forall₂ Unfinished.Listed current.unfinished jobs) (w : World) :
    (∃ c w', proceed settings time current later w = (.ok c, w') ∧
      (∃ jobs', List.Forall₂ Unfinished.Listed c.current.unfinished jobs' ∧ Activity.Leads jobs' ∧
        Activity.Reaches settings index stages (.ofWork ⟨current.orderly, jobs, later⟩, w)
          (.working ⟨c.current.orderly, jobs', c.later⟩, w')) ∧
      (c.current.unfinished = [] → c.later = []) ∧
        c.weight settings ≤ weight settings ⟨current, later⟩ ∧
      (Stage.HasDue time current.unfinished →
        c.weight settings < weight settings ⟨current, later⟩)) ∨
    ∃ e w', proceed settings time current later w = (.error e, w') ∧
      Activity.Reaches settings index stages (.ofWork ⟨current.orderly, jobs, later⟩, w)
        (.closing (Task.statusOf e), w') := by
  induction later generalizing current jobs w with
  | nil =>
    rw [proceed]
    rcases Stage.attempt_cases settings index time stages [] listed w with
      ⟨rest, w', attempted, reached, less, fewer⟩ | ⟨e, w', attempted, reached⟩
    · simp only [attempted]
      exact .inl ⟨_, w', rfl, reached, fun _ => rfl,
        by simpa [weight] using less, by simpa [weight] using fewer⟩
    · simp only [attempted]
      exact .inr ⟨e, w', rfl, reached⟩
  | cons stage later ih =>
    rw [proceed]
    rcases Stage.attempt_cases settings index time stages (stage :: later) listed w with
      ⟨rest, w', attempted, reached, less, fewer⟩ | ⟨e, w', attempted, reached⟩
    · simp only [attempted, Stage.isDone]
      by_cases done : rest.isEmpty = true
      · rw [List.isEmpty_iff.mp done] at reached less fewer
        obtain ⟨jobs', listed', -, reached⟩ := reached
        cases listed'
        have advanced : Activity.Reaches settings index stages
          (.ofWork ⟨current.orderly, jobs, stage :: later⟩, w)
            (.ofWork ⟨(Stage.ofJobs stage).orderly, stage.map fun job => (job, .ready 1), later⟩,
              w') := by
          refine ReflTransGen.trans reached ?_
          rw [Activity.ofWork_leads (leads_ofJobs stage)]
          exact Activity.Reaches.turn .advance rfl
        have next := weightOf_ofJobs settings stage
        have whole : weight settings ⟨current, stage :: later⟩ =
            weightOf settings current.unfinished +
            (stage.length * (settings.retry.maxAttempts + 1) +
              later.flatten.length * (settings.retry.maxAttempts + 1)) := by
          simp [weight, Nat.add_mul]
        have begun : weight settings ⟨Stage.ofJobs stage, later⟩ =
            weightOf settings (Stage.ofJobs stage).unfinished +
            later.flatten.length * (settings.retry.maxAttempts + 1) := rfl
        have nothing : weightOf settings [] = 0 := rfl
        simp only [done, if_true]
        rcases ih (listed_ofJobs stage) w' with
          ⟨c, w'', proceeded, ⟨jobs', listed', leads, reached'⟩, last, less', -⟩ |
            ⟨e, w'', proceeded, reached'⟩
        · refine .inl ⟨c, w'', proceeded,
            ⟨jobs', listed', leads, ReflTransGen.trans advanced reached'⟩, last, by omega,
              fun due => ?_⟩
          have := fewer due
          omega
        · exact .inr ⟨e, w'', proceeded, ReflTransGen.trans advanced reached'⟩
      · simp only [done, Bool.false_eq_true, if_false]
        refine .inl ⟨_, w', rfl, reached, fun empty => ?_,
          by simpa [weight] using less, by simpa [weight] using fewer⟩
        exact absurd (List.isEmpty_iff.mpr empty) done
    · simp only [attempted]
      exact .inr ⟨e, w', rfl, reached⟩

end Cascade

namespace Task

variable {t : Task} {activity : Activity}

/-- Whether a task that waits stands where an activity does. -/
def Stands (t : Task) (activity : Activity) : Prop :=
  ∃ jobs, List.Forall₂ Unfinished.Listed t.cascade.current.unfinished jobs ∧ Activity.Leads jobs ∧
    t.cascade.current.unfinished ≠ [] ∧
    activity = .working ⟨t.cascade.current.orderly, jobs, t.cascade.later⟩

/-- A closing activity ends as the task is recorded to end. -/
theorem finish_reaches {status : SubgraphStatus} {start : Activity × World}
    (reached : Activity.Reaches settings index stages start (.closing status, w)) :
    Activity.Reaches settings index stages start
      (.over (some status), w.record settings (.ofStatus index status)) :=
  ReflTransGen.trans reached (Activity.Reaches.turn .close rfl)

/-- A task goes on by turns until it has to wait, with less to do than before if an attempt was due,
or is over. -/
theorem proceed_cases (settings : DeploymentSettings) (time : Nat) (stages : List (List Job))
    (listed : List.Forall₂ Unfinished.Listed t.cascade.current.unfinished jobs) (w : World) :
    (∃ t' w' activity, t.proceed settings time w = (.inl t', w') ∧ t'.index = t.index ∧
      t'.plan = t.plan ∧
      t'.Stands activity ∧
      Activity.Reaches settings t.index stages
        (.ofWork ⟨t.cascade.current.orderly, jobs, t.cascade.later⟩, w)
        (activity, w') ∧
      t'.cascade.weight settings ≤ t.cascade.weight settings ∧
      (Stage.HasDue time t.cascade.current.unfinished →
        t'.cascade.weight settings < t.cascade.weight settings)) ∨
    ∃ status w', t.proceed settings time w = (.inr ⟨t.index, some t.plan, some status⟩, w') ∧
      Activity.Reaches settings t.index stages
        (.ofWork ⟨t.cascade.current.orderly, jobs, t.cascade.later⟩, w)
        (.over (some status), w') := by
  unfold proceed
  rcases Cascade.proceed_cases settings t.index time stages t.cascade.later listed w with
    ⟨c, w', proceeded, ⟨jobs', listed', leads, reached⟩, last, less, fewer⟩ |
      ⟨e, w', proceeded, reached⟩
  · simp only [proceeded]
    by_cases done : c.isDone = true
    · have empty : c.current.unfinished = [] ∧ c.later = [] := by
        simpa [Cascade.isDone, Stage.isDone] using done
      rw [empty.1] at listed'
      cases listed'
      rw [empty.2] at reached
      have closing : Activity.Reaches settings t.index stages
          (.ofWork ⟨t.cascade.current.orderly, jobs, t.cascade.later⟩, w)
          (.closing .deployed, w') :=
        ReflTransGen.trans reached (Activity.Reaches.turn .advance rfl)
      simp only [done, if_true]
      exact .inr ⟨.deployed, _, rfl, finish_reaches closing⟩
    · simp only [done, Bool.false_eq_true, if_false]
      refine .inl ⟨{ t with cascade := c }, w', _, rfl, rfl, rfl,
        ⟨jobs', listed', leads, fun empty => ?_, rfl⟩, reached,
        less, fewer⟩
      have current_empty : c.current.unfinished = [] := empty
      exact done (by simp [Cascade.isDone, Stage.isDone, last empty, current_empty])
  · simp only [proceeded]
    exact .inr ⟨statusOf e, _, rfl, finish_reaches reached⟩

/-- A task starts by turns, and may make as many attempts as the jobs of its stages have. -/
theorem start_cases (settings : DeploymentSettings) (index : Nat) (g : OrchestrationGraph)
    (plan : SubgraphPlan) (w : World) :
    (∃ t w' activity, start settings index g plan w = (.inl t, w') ∧ t.index = index ∧
      t.plan = plan ∧ t.Stands activity ∧
      Activity.Reaches settings index (RestWiring.stages g plan) (.fresh, w) (activity, w') ∧
      t.cascade.weight settings ≤
        (RestWiring.stages g plan).flatten.length * (settings.retry.maxAttempts + 1)) ∨
    ∃ status w', start settings index g plan w = (.inr ⟨index, some plan, status⟩, w') ∧
      Activity.Reaches settings index (RestWiring.stages g plan) (.fresh, w)
        (.over status, w') := by
  unfold start
  by_cases breaks : settings.breaksDown = some index
  · rw [if_pos breaks]
    exact .inr ⟨none, w, rfl, .turn .start (by simp [Activity.take?, breaks])⟩
  · rw [if_neg breaks]
    have started : Activity.Reaches settings index (RestWiring.stages g plan) (.fresh, w)
        (.ofWork ⟨false, [], RestWiring.stages g plan⟩,
          w.record settings (.subgraphStarted index)) :=
      .turn .start (by simp [Activity.take?, breaks, Activity.ofWork])
    let t : Task := ⟨index, plan, ⟨.ofJobs [], RestWiring.stages g plan⟩⟩
    have nothing : List.Forall₂ Unfinished.Listed t.cascade.current.unfinished [] := .nil
    rcases proceed_cases settings 0 (RestWiring.stages g plan) nothing
      (w.record settings (.subgraphStarted index)) with
      ⟨t', w', activity, proceeded, same, same', stands, reached, less, -⟩ |
        ⟨status, w', proceeded, reached⟩
    · refine .inl ⟨t', w', activity, proceeded, same, same', stands,
        ReflTransGen.trans started reached, ?_⟩
      simpa [t, Cascade.weight, weightOf, Stage.ofJobs] using less
    · exact .inr ⟨some status, w', proceeded, ReflTransGen.trans started reached⟩

/-- A task that waits when the deployment is cancelled can end by turns. -/
theorem Stands.cancel (settings : DeploymentSettings) (stands : t.Stands activity)
    (cancelled : w.cancelled = true) :
    Activity.Reaches settings t.index stages (activity, w)
      (.over (some .cancelled), w.record settings (.ofStatus t.index .cancelled)) := by
  obtain ⟨jobs, listed, leads, nonempty, rfl⟩ := stands
  generalize t.cascade.current.unfinished = unfinished at listed nonempty
  cases listed with
  | nil => exact absurd rfl nonempty
  | @cons job x rest others first _ =>
    cases first with
    | failed job e => exact absurd rfl (leads job e)
    | waiting a =>
      refine finish_reaches (Activity.Reaches.turn (.issue 0) ?_)
      cases orderly : t.cascade.current.orderly <;>
        simp [Activity.take?, Activity.issue?, cancelled, Activity.fail, Activity.ofWork, statusOf]

theorem foldl_min_mem (t : Nat) (ts : List Nat) : ts.foldl Nat.min t ∈ t :: ts := by
  induction ts generalizing t with
  | nil => simp
  | cons u ts ih =>
    rw [List.foldl_cons]
    rcases List.mem_cons.mp (ih (Nat.min t u)) with least | member
    · rw [least]
      rcases Nat.le_total t u with before | after
      · simp [Nat.min_eq_left before]
      · simp [Nat.min_eq_right after]
    · exact List.mem_cons_of_mem _ (List.mem_cons_of_mem _ member)

/-- A task that waits has an attempt to make. -/
theorem Stands.exists_waiting (stands : t.Stands activity) :
    ∃ a rest, t.cascade.current.unfinished = .waiting a :: rest := by
  obtain ⟨jobs, listed, leads, nonempty, -⟩ := stands
  generalize t.cascade.current.unfinished = unfinished at listed nonempty ⊢
  cases listed with
  | nil => exact absurd rfl nonempty
  | @cons job x rest others first _ =>
    cases first with
    | failed job e => exact absurd rfl (leads job e)
    | waiting a => exact ⟨a, rest, rfl⟩

/-- A task whose time has come has an attempt that is due. -/
theorem Stands.hasDue (stands : t.Stands activity) (due : t.cascade.wake ≤ time) :
    Stage.HasDue time t.cascade.current.unfinished := by
  obtain ⟨a, rest, equal⟩ := stands.exists_waiting
  unfold Cascade.wake at due
  generalize times_eq : t.cascade.current.unfinished.filterMap _ = times at due
  cases times with
  | nil => simp [equal] at times_eq
  | cons u us =>
    have member := foldl_min_mem u us
    rw [← times_eq] at member
    obtain ⟨job, inside, woken⟩ := List.mem_filterMap.mp member
    cases job with
    | failed e => cases woken
    | waiting b => exact ⟨b, inside, Nat.le_trans (Nat.le_of_eq (Option.some.inj woken)) due⟩

theorem Stands.weight_pos (settings : DeploymentSettings) (stands : t.Stands activity) :
    0 < t.cascade.weight settings := by
  obtain ⟨a, rest, equal⟩ := stands.exists_waiting
  simp only [Cascade.weight, equal, weightOf, List.map_cons, List.sum_cons, Unfinished.weight,
    Attempt.weight]
  omega

end Task

end RestWiring

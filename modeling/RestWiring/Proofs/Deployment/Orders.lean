import RestWiring.Proofs.Deployment.Redeployment

/-!
# The orders in which jobs are done

While no failure strikes and nobody cancels, components may take turns in any order that each of them
allows, and every such order comes about. All of them leave the same constructs behind.
-/
namespace RestWiring

open Relation

variable {settings : DeploymentSettings} {index place : Nat} {stages : List (List Job)}
  {rest : List Job} {job : Job} {activity : Activity} {w : World}

/-- The backend after jobs have been attempted one after another. -/
def Registry.attempt (r : Registry) (jobs : List Job) : Registry :=
  jobs.foldl (fun r job => (job.perform r).2) r

/-! ## One component -/

namespace Activity

/-- A component that has yet to attempt all jobs that its stage has left. -/
def unattempted (orderly : Bool) (jobs : List Job) (later : List (List Job)) : Activity :=
  .working ⟨orderly, jobs.map fun job => (job, .ready 1), later⟩

/-- Whether a component is between two jobs and has these jobs left, in this order. -/
def Awaits (rest : List Job) (activity : Activity) : Prop :=
  ∃ orderly jobs later, activity = unattempted orderly jobs later ∧ Linearises (jobs :: later) rest

theorem Awaits.start (steady : settings.breaksDown ≠ some index)
    (linear : Linearises stages rest) :
    ∃ activity w', Reaches settings index stages (.fresh, w) (activity, w') ∧
      w'.registry = w.registry ∧ activity.Awaits rest := by
  refine ⟨_, w.record settings (.subgraphStarted index), .turn .start ?_, rfl,
    false, [], stages, rfl, .cons .nil linear⟩
  rw [take?, if_neg steady]
  rfl

/-- Stages without jobs are passed over to get to the next job. -/
theorem Awaits.advance (settings : DeploymentSettings) (index : Nat) (stages : List (List Job))
    (w : World) (awaits : activity.Awaits (job :: rest)) :
    ∃ orderly before after later,
      Reaches settings index stages (activity, w)
        (unattempted orderly (before ++ job :: after) later, w) ∧
      Linearises ((before ++ after) :: later) rest := by
  obtain ⟨orderly, jobs, later, rfl, linear⟩ := awaits
  induction later generalizing orderly jobs with
  | nil =>
    rcases linear.head with rfl | ⟨before, after, rfl, behind⟩
    · cases linear.tail
    · exact ⟨orderly, before, after, [], .refl, behind⟩
  | cons stage later ih =>
    rcases linear.head with rfl | ⟨before, after, rfl, behind⟩
    · obtain ⟨orderly', before, after, later', reaches, behind⟩ := ih _ stage linear.tail
      exact ⟨orderly', before, after, later', .head ⟨.advance, rfl⟩ reaches, behind⟩
    · exact ⟨orderly, before, after, stage :: later, .refl, behind⟩

/-- With no job left, a component ends as deployed. -/
theorem Awaits.finish (settings : DeploymentSettings) (index : Nat) (stages : List (List Job))
    (w : World) (awaits : activity.Awaits []) :
    ∃ activity' w', Reaches settings index stages (activity, w) (activity', w') ∧
      w'.registry = w.registry ∧ activity' = .over (some .deployed) := by
  obtain ⟨orderly, jobs, later, rfl, linear⟩ := awaits
  induction later generalizing orderly jobs with
  | nil =>
    obtain ⟨rfl, -⟩ := linear.eq_nil
    exact ⟨_, _, .head ⟨.advance, rfl⟩ (.single ⟨.close, rfl⟩), rfl, rfl⟩
  | cons stage later ih =>
    obtain ⟨rfl, behind⟩ := linear.eq_nil
    obtain ⟨activity', w', reaches, same, ended⟩ := ih _ stage behind
    exact ⟨activity', w', .head ⟨.advance, rfl⟩ reaches, same, ended⟩

end Activity

/-! ## A deployment -/

namespace Deployment

variable {base : Constructs} {done trace rest' : List (Nat × Job)} {d : Deployment}

/-- What each component can do on its own, whatever the others have done, they can all do. -/
theorem Reaches.each (settings : DeploymentSettings) (before after : Nat → Runner → Prop)
    (step : ∀ {place r w}, before place r → ∃ activity w',
      Activity.Reaches settings r.index r.stages (r.activity, w) (activity, w') ∧
        w'.registry = w.registry ∧ after place { r with activity })
    (start : ∀ {place r}, d.runners[place]? = some r → before place r) :
    ∃ d', Reaches settings d d' ∧ d'.world.registry = d.world.registry ∧
      ∀ {place r}, d'.runners[place]? = some r → after place r := by
  have partly (n : Nat) : ∃ d', Reaches settings d d' ∧
      d'.world.registry = d.world.registry ∧ d'.runners.length = d.runners.length ∧
        ∀ {place r}, d'.runners[place]? = some r →
          if place < n then after place r else before place r := by
    induction n with
    | zero => exact ⟨d, .refl settings d, rfl, rfl, start⟩
    | succ n ih =>
      obtain ⟨d', reaches, same, length, each⟩ := ih
      cases found : d'.runners[n]? with
      | none =>
        refine ⟨d', reaches, same, length, fun {place r} here => ?_⟩
        obtain ⟨inside, -⟩ := List.getElem?_eq_some_iff.mp here
        have outside := List.getElem?_eq_none_iff.mp found
        have known := each here
        rw [if_pos (by omega)] at known
        rwa [if_pos (by omega)]
      | some r =>
        have unmoved := each found
        rw [if_neg (Nat.lt_irrefl n)] at unmoved
        obtain ⟨activity, w', moves, same', holds⟩ := step unmoved
        refine ⟨_, reaches.trans (.of_runner found moves), same'.trans same, ?_,
          fun {place r'} here => ?_⟩
        · rw [List.length_set, length]
        · rcases getElem?_set_cases here with ⟨rfl, rfl⟩ | ⟨different, here⟩
          · rwa [if_pos (Nat.lt_succ_self _)]
          · have known := each here
            by_cases less : place < n
            · rw [if_pos less] at known
              rwa [if_pos (by omega)]
            · rw [if_neg less] at known
              rwa [if_neg (by omega)]
  obtain ⟨d', reaches, same, length, each⟩ := partly d.runners.length
  refine ⟨d', reaches, same, fun {place r} found => ?_⟩
  obtain ⟨inside, -⟩ := List.getElem?_eq_some_iff.mp found
  have holds := each found
  rwa [if_pos (length ▸ inside)] at holds

/-- Whether the components have these jobs left, in this order. -/
def Awaits (rest : List (Nat × Job)) (d : Deployment) : Prop :=
  ∀ {place : Nat} {r : Runner}, d.runners[place]? = some r → r.activity.Awaits (jobsOf rest place)

theorem jobsOf_cons_self (rest : List (Nat × Job)) (place : Nat) (job : Job) :
    jobsOf ((place, job) :: rest) place = job :: jobsOf rest place := by
  simp [jobsOf]

theorem jobsOf_cons_of_ne (rest : List (Nat × Job)) {place other : Nat}
    (different : other ≠ place) (job : Job) :
    jobsOf ((other, job) :: rest) place = jobsOf rest place := by
  simp [jobsOf, different]

theorem Reaches.length {d' : Deployment} (reaches : Reaches settings d d') :
    d'.runners.length = d.runners.length := by
  obtain ⟨turns, -, taken⟩ := reaches
  simpa using congrArg List.length (takeAll?_assignments taken)

/-- The next job is done. -/
theorem Awaits.step (awaits : d.Awaits ((place, job) :: rest')) (inside : place < d.runners.length)
    (calm : Calm settings (· < d.runners.length) d) (traces : Traces base done d)
    (named : Named base) (automatic : settings.cancelAfter = none) :
    ∃ d', Reaches settings d d' ∧ d'.Awaits rest' ∧
      d'.world.registry = (job.perform d.world.registry).2 := by
  have found : d.runners[place]? = some d.runners[place] := List.getElem?_eq_getElem inside
  generalize d.runners[place] = r at found
  have ready := awaits found
  rw [jobsOf_cons_self] at ready
  obtain ⟨orderly, before, after, later, moves, behind⟩ :=
    ready.advance settings r.index r.stages d.world
  have able : d.world.registry.Spares job.call.logged.name ∧
      ∀ key ∈ job.needs, d.world.registry.constructs.contains key = true := by
    obtain ⟨turns, uncancelled, taken⟩ := Reaches.of_runner found moves
    obtain ⟨done', traces', calm'⟩ := calm.takeAll? traces named automatic taken uncancelled
    have here : (d.runners.set place { r with
        activity := .unattempted orderly (before ++ job :: after) later })[place]? = some _ :=
      List.getElem?_set_self inside
    have listed : (job, JobProgress.ready 1) ∈
        (before ++ job :: after).map fun job => (job, JobProgress.ready 1) := by simp
    have follows := traces'.follows here
    obtain ⟨-, supplied, -, spared⟩ := calm'.calm here inside
    exact ⟨spared job (Work.Follows.mem_flatten follows listed),
      traces'.present named here supplied rfl listed⟩
  obtain ⟨answer, performed⟩ := Job.perform_succeeds able.1 able.2
  have attempted : ∃ w', Attempt.once settings 0 { job } d.world = (none, w') ∧
      w'.registry = (job.perform d.world.registry).2 := by
    simp only [Attempt.once, calm.running, Bool.false_eq_true, if_false, performed]
    split
    · exact ⟨_, rfl, rfl⟩
    · exact ⟨_, rfl, rfl⟩
  obtain ⟨w', attempted, registry⟩ := attempted
  have called := Attempt.once_reaches attempted r.index r.stages orderly
    (before.map fun job => (job, .ready 1)) (after.map fun job => (job, .ready 1)) later
  have leads : Activity.Leads ((before ++ after).map fun job => (job, JobProgress.ready 1)) := by
    intro j e first
    obtain ⟨_, -, equal⟩ := List.mem_map.mp (List.mem_of_mem_head? first)
    cases equal
  rw [Activity.unattempted, List.map_append, List.map_cons] at moves
  rw [Activity.left, ← List.map_append, Activity.ofWork_leads leads] at called
  refine ⟨_, .of_runner found (ReflTransGen.trans moves called), fun {other r'} here => ?_, registry⟩
  rcases getElem?_set_cases here with ⟨rfl, rfl⟩ | ⟨different, here⟩
  · exact ⟨orderly, before ++ after, later, rfl, behind⟩
  · rw [← jobsOf_cons_of_ne rest' (Ne.symm different) job]
    exact awaits here

/-- All jobs are done in the order in which they are awaited. -/
theorem Awaits.run (awaits : d.Awaits trace) (placed : ∀ e ∈ trace, e.1 < d.runners.length)
    (calm : Calm settings (· < d.runners.length) d) (traces : Traces base done d)
    (named : Named base) (automatic : settings.cancelAfter = none) :
    ∃ d', Reaches settings d d' ∧ d'.Awaits [] ∧
      d'.world.registry = d.world.registry.attempt (trace.map (·.2)) := by
  induction trace generalizing d done with
  | nil => exact ⟨d, .refl settings d, awaits, rfl⟩
  | cons e rest ih =>
    obtain ⟨place, job⟩ := e
    obtain ⟨here, others⟩ := List.forall_mem_cons.mp placed
    obtain ⟨d', reaches, awaits', performed⟩ := awaits.step here calm traces named automatic
    have length := reaches.length
    obtain ⟨turns, uncancelled, taken⟩ := reaches
    obtain ⟨done', traces', calm'⟩ := calm.takeAll? traces named automatic taken uncancelled
    rw [← length] at others calm'
    obtain ⟨d'', reaches', awaits'', attempted⟩ := ih awaits' others calm' traces'
    refine ⟨d'', .trans ⟨turns, uncancelled, taken⟩ reaches', awaits'', ?_⟩
    rw [attempted, performed]
    rfl

/-- When no job is left, the deployment ends. -/
theorem Awaits.finish (awaits : d.Awaits []) (settings : DeploymentSettings)
    (deploymentId channel : String) :
    ∃ d' outcome, Reaches settings d d' ∧
      d'.outcome? settings deploymentId channel = some outcome ∧
      outcome.2.registry = d.world.registry := by
  obtain ⟨d', closes, same, closed⟩ := Reaches.each settings
    (fun _ r => r.activity.Awaits []) (fun _ r => r.activity = .over (some .deployed))
    (fun {place r w} idle => idle.finish settings r.index r.stages w) (fun found => awaits found)
  have ended : d'.runners.mapM Runner.ended? =
      some (d'.runners.map fun r => ⟨r.index, r.plan, some .deployed⟩) := by
    rw [mapM_eq_some_iff, List.forall₂_map_right_iff, List.forall₂_same]
    intro r member
    obtain ⟨place, found⟩ := List.getElem?_of_mem member
    rw [Runner.ended?, closed found]
  obtain ⟨outcome, concluded⟩ :
      ∃ outcome, d'.outcome? settings deploymentId channel = some outcome :=
    ⟨_, by rw [outcome?, ended]; rfl⟩
  exact ⟨d', outcome, closes, concluded, (outcome?_spec concluded).1.trans same⟩

end Deployment

/-! ## All orders -/

variable {g : OrchestrationGraph} {channel : String} {plan : DeploymentPlan} {retry : RetryPolicy}
  {trace : List (Nat × Job)}

theorem OrchestrationGraph.exists_planned (planned : g.plan channel = .ok plan)
    (inside : place < (g.planned channel).length) :
    ∃ c p, (place, c, .ok p) ∈ g.planned channel := by
  obtain ⟨-, related⟩ := plan_success_iff.mp planned
  have listed := List.getElem_mem inside
  have index := index_of_getElem?_planned (List.getElem?_eq_getElem inside)
  generalize (g.planned channel)[place] = part at listed index
  obtain ⟨p, -, success⟩ := exists_of_mem_left related listed
  obtain ⟨i, c, result⟩ := part
  cases index
  cases success
  exact ⟨c, p, listed⟩

section Orders

variable (planned : g.plan channel = .ok plan) (running : w.cancelled = false)
  (quiet : w.registry.Quiet)
include planned

theorem Deployment.getElem?_begin (settings : DeploymentSettings) (w : World) {r : Runner}
    (found : (Deployment.begin settings channel g w).runners[place]? = some r) :
    ∃ c p, (place, c, .ok p) ∈ g.planned channel ∧ r = .ofPlanned place c (.ok p) := by
  obtain ⟨inside, -⟩ := List.getElem?_eq_some_iff.mp found
  rw [Deployment.begin, List.length_map] at inside
  obtain ⟨c, p, listed⟩ := OrchestrationGraph.exists_planned planned inside
  have fresh := getElem?_begin_of_planned settings w listed
  exact ⟨c, p, listed, Option.some.inj (found.symm.trans fresh)⟩

/-- All tasks start before any of them does a job. -/
theorem Deployment.Awaits.begin (interleaves : Interleaves (g.parts channel) trace) (w : World) :
    ∃ d, Reaches { retry } (Deployment.begin { retry } channel g w) d ∧
      d.world.registry = w.registry ∧ d.Awaits trace := by
  refine Reaches.each { retry }
    (fun place r => r.activity = .fresh ∧ Linearises r.stages (jobsOf trace place))
    (fun place r => r.activity.Awaits (jobsOf trace place)) (fun {place r w} start => ?_)
    (fun {place r} found => ?_)
  · obtain ⟨fresh, linear⟩ := start
    rw [fresh]
    exact Activity.Awaits.start (by simp) linear
  · obtain ⟨c, p, listed, rfl⟩ := getElem?_begin planned _ w found
    exact ⟨rfl, interleaves.each (OrchestrationGraph.parts_of_planned listed)⟩

include running quiet

theorem Deployment.Calm.begin_all :
    Calm { retry } (· < (Deployment.begin { retry } channel g w).runners.length)
      (Deployment.begin { retry } channel g w) := by
  have begun : Calm { retry } _ (Deployment.begin { retry } channel g w) := .begin rfl running
  refine ⟨begun.running, fun {place r} found inside => begun.calm found ?_⟩
  obtain ⟨c, p, listed, -⟩ := getElem?_begin planned _ w found
  exact ⟨c, p, listed, by simp, fun job _ => quiet.spares _⟩

/-- Components may take turns in any order: some deployment does the jobs in that order. -/
theorem Interleaves.exists_turns (interleaves : Interleaves (g.parts channel) trace)
    (retry : RetryPolicy) (deploymentId : String) (named : Named w.registry.constructs) :
    ∃ turns outcome, .cancel ∉ turns ∧
      Deployment.EndsIn { retry } deploymentId channel g w turns outcome ∧
      outcome.2.registry = w.registry.attempt (trace.map (·.2)) := by
  obtain ⟨d, starts, started, awaits⟩ := Deployment.Awaits.begin planned interleaves w
  have length := starts.length
  obtain ⟨turns, uncancelled, taken⟩ := starts
  obtain ⟨done, traces, calm⟩ := (Deployment.Calm.begin_all planned running quiet).takeAll?
    (.begin { retry } channel g w) named rfl taken uncancelled
  rw [← length] at calm
  have placed : ∀ e ∈ trace, e.1 < d.runners.length := by
    intro e member
    have inside := interleaves.placed e member
    rw [OrchestrationGraph.parts, List.length_map] at inside
    rwa [length, Deployment.begin, List.length_map]
  obtain ⟨d', runs, idle, attempted⟩ := awaits.run placed calm traces named rfl
  obtain ⟨d'', outcome, closes, ended, same⟩ := idle.finish { retry } deploymentId channel
  obtain ⟨turns, uncancelled, taken⟩ :=
    Deployment.Reaches.trans ⟨turns, uncancelled, taken⟩ (runs.trans closes)
  exact ⟨turns, outcome, uncancelled, ⟨d'', taken, ended⟩, by rw [same, attempted, started]⟩

end Orders

/-- In whatever order components take turns, a graph that can be planned is deployed in full and leaves
the same constructs behind; and components may take turns in every order that keeps to the stages of
each. -/
theorem deploy_order_independent (retry : RetryPolicy) (deploymentId channel : String)
    (g : OrchestrationGraph) (plan : DeploymentPlan) (w : World) (built : g.Built)
    (distinct : g.DistinctUids) (shared : g.SharedSinksAgree channel)
    (planned : g.plan channel = .ok plan) (backend : w.registry.Built)
    (quiet : w.registry.Quiet) (running : w.cancelled = false) :
    (∀ trace, Interleaves (g.parts channel) trace →
      (w.registry.attempt (trace.map (·.2))).constructs =
        (deploy { retry } deploymentId false channel g w).2.1.registry.constructs ∧
      ∃ turns outcome, .cancel ∉ turns ∧
        Deployment.EndsIn { retry } deploymentId channel g w turns outcome ∧
        outcome.2.registry = w.registry.attempt (trace.map (·.2))) ∧
    ∀ turns outcome, .cancel ∉ turns →
      Deployment.EndsIn { retry } deploymentId channel g w turns outcome →
      outcome.1.subgraphs = plan.subgraphs.map (fun p => ⟨p.index, some p, .deployed⟩) ∧
        outcome.2.registry.constructs =
          (deploy { retry } deploymentId false channel g w).2.1.registry.constructs := by
  have alone := deploy_completes retry deploymentId channel g quiet running
  generalize (deploy { retry } deploymentId false channel g w).2.1.registry.constructs = whole
    at alone ⊢
  have alike {turns : List Turn} {outcome : DeploymentReport × World}
      (uncancelled : .cancel ∉ turns)
      (ends : Deployment.EndsIn { retry } deploymentId channel g w turns outcome) :
      outcome.2.registry.constructs = whole :=
    (Leaves.refl g channel _).completes_alike built.wellFormed distinct shared backend.named
      ⟨retry, deploymentId, w, turns, outcome, rfl, quiet, running, uncancelled, ends, rfl⟩ alone
  refine ⟨fun trace interleaves => ?_, fun turns outcome uncancelled ends =>
    ⟨ends.deployed uncancelled running quiet backend.named planned, alike uncancelled ends⟩⟩
  obtain ⟨turns, outcome, uncancelled, ends, attempted⟩ :=
    interleaves.exists_turns planned running quiet retry deploymentId backend.named
  exact ⟨attempted ▸ alike uncancelled ends, turns, outcome, uncancelled, ends, attempted⟩

/-- All jobs of components one after another. -/
def inTurn (order : List (List (List Job) × Nat)) : List (Nat × Job) :=
  order.flatMap fun part => part.1.flatten.map fun job => (part.2, job)

theorem jobsOf_inTurn (order : List (List (List Job) × Nat)) (place : Nat) :
    jobsOf (inTurn order) place = (order.filter (·.2 = place)).flatMap (·.1.flatten) := by
  induction order with
  | nil => rfl
  | cons part order ih =>
    obtain ⟨stages, index⟩ := part
    simp only [jobsOf, inTurn, List.flatMap_cons, List.filter_append, List.map_append] at ih ⊢
    rw [ih]
    by_cases same : index = place
    · simp [same, List.filter_map, Function.comp_def]
    · simp [same, List.filter_map, Function.comp_def]

/-- Components may be deployed one after another, whichever comes first. -/
theorem interleaves_inTurn {parts : List (List (List Job))} {order : List (List (List Job) × Nat)}
    (perm : order.Perm parts.zipIdx) : Interleaves parts (inTurn order) := by
  have listed {stages : List (List Job)} {index : Nat} :
      (stages, index) ∈ order ↔ parts[index]? = some stages :=
    perm.mem_iff.trans List.mk_mem_zipIdx_iff_getElem?
  constructor
  · intro e member
    obtain ⟨⟨stages, index⟩, inside, jobs⟩ := List.mem_flatMap.mp member
    obtain ⟨job, -, rfl⟩ := List.mem_map.mp jobs
    exact (List.getElem?_eq_some_iff.mp (listed.mp inside)).1
  · intro place stages found
    have nodup : order.Nodup := by
      refine perm.nodup_iff.mpr (List.Nodup.of_map (·.2) ?_)
      rw [List.zipIdx_map_snd]
      exact List.nodup_range'
    have single : order.filter (·.2 = place) = [(stages, place)] := by
      refine List.perm_singleton.mp ((List.perm_ext_iff_of_nodup (nodup.filter _)
        (List.nodup_singleton _)).mpr fun part => ?_)
      obtain ⟨stages', index⟩ := part
      rw [List.mem_filter, listed, List.mem_singleton, Prod.mk.injEq]
      constructor
      · rintro ⟨found', same⟩
        cases of_decide_eq_true same
        exact ⟨Option.some.inj (found'.symm.trans found), rfl⟩
      · rintro ⟨rfl, rfl⟩
        exact ⟨found, decide_eq_true rfl⟩
    rw [jobsOf_inTurn, single, List.flatMap_singleton]
    exact .flatten stages
/-- Two components that share a bucket and the channel may be deployed the last one first. -/
theorem deploy_order_independent_relays :
    ∃ g plan trace, OrchestrationGraph.relays = some g ∧ g.plan "done" = .ok plan ∧
      trace = inTurn (g.parts "done").zipIdx.reverse ∧ Interleaves (g.parts "done") trace ∧
      (Registry.attempt {} (trace.map (·.2))).constructs =
        (deploy {} "first" false "done" g { registry := {} }).2.1.registry.constructs ∧
      ∃ turns outcome, .cancel ∉ turns ∧
        Deployment.EndsIn {} "first" "done" g { registry := {} } turns outcome ∧
        outcome.2.registry = Registry.attempt {} (trace.map (·.2)) ∧
        outcome.1.subgraphs = plan.subgraphs.map (fun p => ⟨p.index, some p, .deployed⟩) := by
  obtain ⟨g, plan, relays, built, distinct, shared, planned⟩ := OrchestrationGraph.exists_relays
  obtain ⟨orders, runs⟩ := deploy_order_independent {} "first" "done" g plan { registry := {} }
    built distinct shared planned .empty (by simp [Registry.Quiet]) rfl
  have interleaves := interleaves_inTurn (List.reverse_perm (g.parts "done").zipIdx)
  obtain ⟨constructs, turns, outcome, uncancelled, ends, attempted⟩ := orders _ interleaves
  exact ⟨g, plan, _, relays, planned, rfl, interleaves, constructs, turns, outcome, uncancelled,
    ends, attempted, (runs turns outcome uncancelled ends).1⟩

end RestWiring

import RestWiring.Proofs.Deployment.InFlight
import RestWiring.Proofs.Deployment.Parts
import RestWiring.Proofs.Deployment.Reports
import RestWiring.Proofs.Orchestration.Traversal

/-!
# Cancelled deployments

From the moment at which a deployment is cancelled no component issues a call; calls that are in flight
by then may still be answered. A component whose task does not break down then ends as deployed only if
all its calls had been issued, as failed only if one of its calls failed for good, and as cancelled
otherwise.
-/
namespace RestWiring

variable {settings : DeploymentSettings} {g c : OrchestrationGraph} {channel deploymentId : String}
  {p : SubgraphPlan} {w w' : World} {index place : Nat} {stages : List (List Job)} {r : Runner}
  {mine : List Contact} {made : Option Contact} {activity activity' : Activity}
  {s s' : Recorded} {incidents before after : List Incident} {log more : List (Nat × Contact)}
  {status : SubgraphStatus} {outcome : DeploymentReport × World}

/-! ## How a component ends -/

namespace Activity

/-- Whether a component does not end as if it had only been planned. -/
def Settles : Activity → Prop
  | .closing status | .over (some status) => status ≠ .planned
  | .fresh | .working _ | .announcing .. | .over none => True

theorem settles_unfinished (e : OrchestrationError) : (closing (Task.statusOf e)).Settles := by
  cases e <;> exact nofun

theorem settles_ofWork (work : Work) : (ofWork work).Settles := by
  unfold ofWork
  split
  · exact settles_unfinished _
  · trivial

theorem settles_settle (event : Option DeploymentEvent) (work : Work) :
    (settle event work).Settles := by
  cases event with
  | none => exact settles_ofWork work
  | some e => trivial

theorem settles_fail (place : Nat) (job : Job) (e : OrchestrationError) (work : Work) :
    (fail place job e work).Settles := by
  unfold fail
  split
  · exact settles_ofWork _
  · exact settles_unfinished e

theorem Settles.step (settles : activity.Settles)
    (step : Step settings index stages activity w made activity' w') : activity'.Settles := by
  cases step with
  | withhold | giveUp => exact settles_fail ..
  | succeed => exact settles_settle ..
  | announce => exact settles_ofWork _
  | finish => exact nofun
  | close => exact settles
  | breakDown | start | issue | again | enter => trivial

end Activity

/-- What is kept of a component that can be planned and whose task does not break down. -/
structure Tracked (index : Nat) (p : SubgraphPlan) (stages : List (List Job)) (r : Runner)
    (mine : List Contact) : Prop where
  assigned : r.assignment = (index, some p, stages)
  follows : r.activity.Follows stages (mine.filterMap Contact.success?)
  blames : r.activity.Blames
    (fun e => r.plan = none ∨ ∃ job e', .failed job e' ∈ mine ∧ e = .executor job.operation e') False
  settles : r.activity.Settles

theorem Tracked.step (tracked : Tracked index p stages r mine)
    (steady : settings.breaksDown ≠ some index)
    (step : Activity.Step settings r.index r.stages r.activity w made activity w') :
    Tracked index p stages { r with activity } (mine ++ made.toList) := by
  obtain ⟨assigned, follows, blames, settles⟩ := tracked
  obtain ⟨i, plan, stages', activity'⟩ := r
  cases assigned
  refine ⟨rfl, ?_, blames.step_own step steady, settles.step step⟩
  rw [List.filterMap_append]
  exact step.follows follows

namespace Recorded

/-- Components are tracked whatever comes upon a deployment, except that their own tasks break down. -/
theorem tracked_throughout
    (befallen : (begin settings channel g w).befallAll? settings incidents = some s)
    (listed : (index, c, .ok p) ∈ g.planned channel) (steady : settings.breaksDown ≠ some index)
    (unbroken : .breakDown index ∉ incidents) :
    s.Throughout fun place r mine => place = index → Tracked index p (RestWiring.stages c p) r mine := by
  refine befallAll?_induction (Throughout _) (· ≠ .breakDown index) ?_ (fun whole all moves => ?_)
    (fun _ member same => unbroken (same ▸ member)) befallen
  · rintro place r found rfl
    cases found.symm.trans (Deployment.getElem?_begin_of_planned settings w listed)
    exact ⟨rfl, rfl, trivial, trivial⟩
  · refine moves.throughout all (fun _ tracked step here => (tracked here).step steady step) ?_
    rintro place r mine broken - - rfl
    exact absurd broken whole

end Recorded

/-- How a component may end that had issued calls for some jobs when its deployment was cancelled. -/
inductive Ends (stages : List (List Job)) (issued : List Job) (mine : List Contact) :
    SubgraphStatus → Prop
  | deployed (all : stages.flatten.Subperm issued) : Ends stages issued mine .deployed
  | failed {job : Job} {e : ExecutorError} (final : .failed job e ∈ mine) :
      Ends stages issued mine (.failed (.executor job.operation e))
  | cancelled : Ends stages issued mine .cancelled

theorem Tracked.ends {issued : List Job} (tracked : Tracked index p stages r mine)
    (closed : r.activity = .over (some status))
    (done : (mine.filterMap Contact.success?).Subperm issued) : Ends stages issued mine status := by
  obtain ⟨assigned, follows, blames, settles⟩ := tracked
  rw [closed] at follows blames settles
  cases status with
  | planned => exact absurd rfl settles
  | deployed => exact .deployed ((Linearises.perm follows).symm.subperm.trans done)
  | failed e =>
    obtain ⟨job, e', member, rfl⟩ := blames.resolve_left fun unplanned => by
      cases unplanned.symm.trans (congrArg (·.2.1) assigned)
    exact .failed member
  | cancelled => exact .cancelled

/-! ## From the moment of cancellation -/

theorem Contact.success_sublist_answer (mine : List Contact) :
    (mine.filterMap success?).Sublist (mine.filterMap answer?) := by
  induction mine with
  | nil => exact .slnil
  | cons contact mine ih =>
    cases contact with
    | issued => exact ih
    | succeeded job => exact ih.cons_cons job
    | repeated job | failed job => exact ih.cons job

/-- Contacts are answers where no call is issued. -/
theorem Contact.map_job_of_unissued (unissued : mine.filterMap issue? = []) :
    mine.map job = mine.filterMap answer? := by
  induction mine with
  | nil => rfl
  | cons contact mine ih =>
    cases contact with
    | issued job => cases unissued
    | succeeded | repeated | failed => exact congrArg (_ :: ·) (ih unissued)

namespace Recorded

theorem begin_inFlight (settings : DeploymentSettings) (channel : String) (g : OrchestrationGraph)
    (w : World) (place : Nat) : (begin settings channel g w).inFlight place = [] := by
  rw [inFlight, begin, Deployment.begin, List.getElem?_map]
  cases (g.planned channel)[place]? with
  | none => rfl
  | some part =>
    obtain ⟨index, component, result⟩ := part
    cases result <;> rfl

/-- What a component has done in the end it had issued calls for when the deployment was cancelled. -/
theorem Accounted.done_subperm (first : (begin settings channel g w).Accounted s log)
    (second : s.Accounted s' more) (cancelled : s.deployment.world.cancelled = true) (place : Nat) :
    ((contactsOf s'.log place).filterMap Contact.success?).Subperm (issuedBy s.log place) := by
  have whole : s.log = log := first.log
  have answered : (answeredBy s'.log place).Subperm (answeredBy log place ++ s.inFlight place) := by
    have late := second.balance place
    rw [(second.halted cancelled).2 place, List.nil_append] at late
    rw [second.log, answeredBy, contactsOf_append, List.filterMap_append, whole]
    exact (List.subperm_append_left _).mpr
      ((List.sublist_append_left ..).subperm.trans late)
  have early := first.balance place
  rw [begin_inFlight, List.append_nil] at early
  rw [whole]
  exact (Contact.success_sublist_answer _).subperm.trans (answered.trans early)

/-- How a deployment goes on once it has been cancelled: it issues no calls, and what it still has
answers for was in flight by then. -/
structure Halted (s s' : Recorded) (more : List (Nat × Contact)) : Prop where
  log : s'.log = s.log ++ more
  unissued : ∀ place job, (place, .issued job) ∉ more
  answered : ∀ place, ((contactsOf more place).map Contact.job).Subperm (s.inFlight place)

theorem Accounted.halts (accounted : s.Accounted s' more)
    (cancelled : s.deployment.world.cancelled = true) : s.Halted s' more := by
  obtain ⟨-, unissued⟩ := accounted.halted cancelled
  refine ⟨accounted.log, fun place job member => ?_, fun place => ?_⟩
  · have issued : job ∈ issuedBy more place :=
      List.mem_filterMap.mpr ⟨_, mem_contactsOf.mpr member, rfl⟩
    rw [unissued] at issued
    cases issued
  · have balance := accounted.balance place
    rw [unissued, List.nil_append] at balance
    rw [Contact.map_job_of_unissued (unissued place)]
    exact (List.sublist_append_left ..).subperm.trans balance

/-- A planned component whose task does not break down ends in one of three ways. -/
theorem exists_status_of_cancelled
    (begun : (begin settings channel g w).befallAll? settings before = some s)
    (cancelled : s.deployment.world.cancelled = true)
    (befallen : s.befallAll? settings after = some s')
    (ended : s'.deployment.outcome? settings deploymentId channel = some outcome)
    (listed : (index, c, .ok p) ∈ g.planned channel) (steady : settings.breaksDown ≠ some index)
    (unbroken : .breakDown index ∉ before ++ after) :
    ∃ status, outcome.1.subgraphs[index]? = some ⟨index, some p, status⟩ ∧
      Ends (RestWiring.stages c p) (issuedBy s.log index) (contactsOf s'.log index) status := by
  obtain ⟨log, first⟩ := befallAll?_accounted begun
  obtain ⟨more, second⟩ := befallAll?_accounted befallen
  have whole := befallAll?_append begun befallen
  obtain ⟨r, found, assignment⟩ := Deployment.exists_runner (befallAll?_assigned whole) listed
  have tracked := tracked_throughout whole listed steady unbroken _ r found rfl
  obtain ⟨-, -, reports⟩ := Deployment.outcome?_spec ended
  obtain ⟨status, closed, report⟩ := reports found
  obtain ⟨i, plan, stages, activity⟩ := r
  cases assignment
  subst closed
  cases status with
  | none => exact tracked.blames.elim
  | some status => exact ⟨status, report, tracked.ends rfl (first.done_subperm second cancelled _)⟩

/-! ## Deployments that are cancelled before they begin -/

theorem begin_cancelled (settings : DeploymentSettings) (channel : String) (g : OrchestrationGraph)
    (cancelled : w.cancelled = true) :
    (begin settings channel g w).deployment.world.cancelled = true := by
  simp [begin, Deployment.begin, World.record, cancelled]

/-- Nothing passes between components and the backend when a deployment is cancelled before it begins. -/
theorem log_eq_nil_of_cancelled (cancelled : w.cancelled = true)
    (befallen : (begin settings channel g w).befallAll? settings incidents = some s) : s.log = [] := by
  obtain ⟨more, accounted⟩ := befallAll?_accounted befallen
  have halted := accounted.halts (begin_cancelled settings channel g cancelled)
  have whole : s.log = more := halted.log
  rw [whole]
  refine List.eq_nil_iff_forall_not_mem.mpr fun e member => ?_
  obtain ⟨place, contact⟩ := e
  have nothing := halted.answered place
  rw [begin_inFlight, List.subperm_nil, List.map_eq_nil_iff] at nothing
  have made := mem_contactsOf.mpr member
  rw [nothing] at made
  cases made

end Recorded

/-- Every component has a function to register. -/
theorem stages_flatten_ne_nil (formed : g.WellFormed) (listed : (index, c, .ok p) ∈ g.planned channel) :
    (RestWiring.stages c p).flatten ≠ [] := by
  obtain ⟨names, seed, rfl, inside, spec⟩ := OrchestrationGraph.exists_seed_of_mem_components formed
    (OrchestrationGraph.mem_planned listed).1
  obtain ⟨n, found⟩ := SortedMap.contains_iff.mp inside
  have here := OrchestrationGraph.induced_node?_iff.mpr ⟨found, (spec seed).mpr .refl⟩
  exact List.ne_nil_of_mem (mem_stages.mpr (.inr (.inl ⟨n, SortedMap.mem_values.mpr ⟨seed, here⟩, rfl⟩)))

/-- Planned components whose tasks do not break down end as cancelled. -/
theorem Recorded.all_cancelled (formed : g.WellFormed) (cancelled : w.cancelled = true)
    (befallen : (begin settings channel g w).befallAll? settings incidents = some s)
    (ended : s.deployment.outcome? settings deploymentId channel = some outcome)
    (listed : (index, c, .ok p) ∈ g.planned channel) (steady : settings.breaksDown ≠ some index)
    (unbroken : .breakDown index ∉ incidents) :
    outcome.1.subgraphs[index]? = some ⟨index, some p, .cancelled⟩ := by
  -- The moment of cancellation is the beginning, when nothing has been issued.
  have start : (begin settings channel g w).befallAll? settings [] =
      some (begin settings channel g w) := rfl
  obtain ⟨status, report, ends⟩ := exists_status_of_cancelled start
    (begin_cancelled settings channel g cancelled) befallen ended listed steady unbroken
  rw [log_eq_nil_of_cancelled cancelled befallen] at ends
  cases ends with
  | deployed all => exact absurd (List.subperm_nil.mp all) (stages_flatten_ne_nil formed listed)
  | failed final => cases final
  | cancelled => exact report

/-- Cancelling a deployment stops what it asks of the backend. From then on no call is issued, and only
calls in flight are answered; constructs that are there stay unless somebody tears the backend down; and
every planned component whose task does not break down ends in one of three ways. A deployment that is
cancelled before it begins makes no call: planned components whose tasks do not break down end as
cancelled, and those that cannot be planned as failed. This is so for whatever may come upon a deployment,
and the program's own schedule is one of the ways in which it may go. -/
theorem cancellation_stops_calls (settings : DeploymentSettings) (channel : String)
    (g : OrchestrationGraph) (w : World) (built : g.Built) :
    (∀ before s after s', (Recorded.begin settings channel g w).befallAll? settings before = some s →
      s.deployment.world.cancelled = true → s.befallAll? settings after = some s' →
      ∃ more, s.Halted s' more ∧ ((∀ x ∈ after, x.Own) → s.Logged s' more) ∧
        (.happening (.call .tearDown) ∉ after → ∀ key,
          s.deployment.world.registry.constructs.contains key = true →
          s'.deployment.world.registry.constructs.contains key = true) ∧
        ∀ deploymentId outcome i c p,
          s'.deployment.outcome? settings deploymentId channel = some outcome →
          (i, c, .ok p) ∈ g.planned channel → settings.breaksDown ≠ some i →
          .breakDown i ∉ before ++ after →
          ∃ status, outcome.1.subgraphs[i]? = some ⟨i, some p, status⟩ ∧
            Ends (RestWiring.stages c p) (issuedBy s.log i) (contactsOf s'.log i) status) ∧
    (w.cancelled = true → ∀ incidents s,
      (Recorded.begin settings channel g w).befallAll? settings incidents = some s →
      s.log = [] ∧ ((∀ x ∈ incidents, x.Own) → s.deployment.world.registry = w.registry) ∧
      ∀ deploymentId outcome, s.deployment.outcome? settings deploymentId channel = some outcome →
        (∀ i c p, (i, c, .ok p) ∈ g.planned channel → settings.breaksDown ≠ some i →
          .breakDown i ∉ incidents → outcome.1.subgraphs[i]? = some ⟨i, some p, .cancelled⟩) ∧
        ∀ i c e, (i, c, .error e) ∈ g.planned channel →
          outcome.1.subgraphs[i]? = some ⟨i, none, .failed e⟩) ∧
    ∀ deploymentId, ∃ incidents s, (∀ x ∈ incidents, x.Own) ∧
      (Recorded.begin settings channel g w).befallAll? settings incidents = some s ∧
      s.deployment.outcome? settings deploymentId channel =
        some ((deploy settings deploymentId false channel g w).1,
          (deploy settings deploymentId false channel g w).2.1) := by
  refine ⟨fun before s after s' begun cancelled befallen => ?_,
    fun cancelled incidents s befallen => ?_,
    fun deploymentId => Recorded.deploy_befallen settings deploymentId channel g w⟩
  · obtain ⟨more, accounted⟩ := Recorded.befallAll?_accounted befallen
    refine ⟨more, accounted.halts cancelled, fun own => ?_, fun standing key =>
      Recorded.befallAll?_contains befallen standing, fun deploymentId outcome i c p ended listed steady
      unbroken => Recorded.exists_status_of_cancelled begun cancelled befallen ended listed steady unbroken⟩
    obtain ⟨more', logged⟩ := Recorded.befallAll?_logged befallen own
    cases List.append_cancel_left (accounted.log.symm.trans logged.log)
    exact logged
  · have silent := Recorded.log_eq_nil_of_cancelled cancelled befallen
    refine ⟨silent, fun own => ?_, fun deploymentId outcome ended =>
      ⟨fun i c p listed steady unbroken => ?_, fun i c e listed => ?_⟩⟩
    · obtain ⟨more, logged⟩ := Recorded.befallAll?_logged befallen own
      have nothing : more = [] := by simpa [Recorded.begin, silent] using logged.log
      exact logged.untouched (by rw [nothing]; rfl)
    · exact Recorded.all_cancelled built.wellFormed cancelled befallen ended listed steady unbroken
    · have dry : ((g.planned channel).map dryReport)[i]? = some ⟨i, none, .failed e⟩ := by
        rw [List.getElem?_map, OrchestrationGraph.getElem?_planned listed]
        rfl
      exact ((Recorded.agreesWith befallen ended).unplanned dry rfl).1

/-! ## A deployment that is cancelled while a call is in flight -/

def Incident.turn (place : Nat) (turn : TaskTurn) : Incident := .happening (.turn (.task place turn))

/-- The first component has issued the call for its sink. -/
def interrupted : List Incident :=
  [.turn 0 .start, .turn 0 .advance, .turn 0 (.issue 0), .happening (.turn .cancel)]

/-- The sink is registered, and no function is. -/
def unwound : List Incident :=
  [.turn 0 (.complete 0), .turn 0 .announce, .turn 0 .advance, .turn 0 (.issue 0), .turn 0 .close,
    .turn 1 .start, .turn 1 .advance, .turn 1 (.issue 0), .turn 1 .close]

theorem cancellation_stops_calls_relays :
    ∃ g s s' outcome, OrchestrationGraph.relays = some g ∧
      (Recorded.begin {} "done" g { registry := {} }).befallAll? {} interrupted = some s ∧
      s.deployment.world.cancelled = true ∧ s.befallAll? {} unwound = some s' ∧
      s'.deployment.outcome? {} "first" "done" = some outcome ∧ (∃ more, s.Halted s' more) ∧
      s'.log.length = s.log.length + 1 ∧
      outcome.1.subgraphs.map (·.status) = [.cancelled, .cancelled] := by
  obtain ⟨g, plan, relays, built, -⟩ := OrchestrationGraph.exists_relays
  have run : (OrchestrationGraph.relays.bind fun g =>
      ((Recorded.begin {} "done" g { registry := {} }).befallAll? {} interrupted).bind fun s =>
        (s.befallAll? {} unwound).bind fun s' =>
          (s'.deployment.outcome? {} "first" "done").map fun outcome =>
            (s.deployment.world.cancelled, s.log.length, s'.log.length,
              outcome.1.subgraphs.map (·.status))) =
      some (true, 1, 2, [.cancelled, .cancelled]) := by decide +kernel
  rw [relays, Option.bind_some] at run
  obtain ⟨s, begun, run⟩ := Option.bind_eq_some_iff.mp run
  obtain ⟨s', befallen, run⟩ := Option.bind_eq_some_iff.mp run
  obtain ⟨outcome, ended, facts⟩ := Option.map_eq_some_iff.mp run
  simp only [Prod.mk.injEq] at facts
  obtain ⟨cancelled, earlier, later, statuses⟩ := facts
  obtain ⟨stops, -⟩ := cancellation_stops_calls {} "done" g { registry := {} } built
  obtain ⟨more, halted, -⟩ := stops interrupted s unwound s' begun cancelled befallen
  exact ⟨g, s, s', outcome, relays, begun, cancelled, befallen, ended, ⟨more, halted⟩,
    by rw [earlier, later], statuses⟩

/-- A task that breaks down is reported as failed, also when the deployment was cancelled before. -/
theorem broken_task_of_cancelled :
    ∃ g plan, OrchestrationGraph.relays = some g ∧ g.plan "done" = .ok plan ∧
      ∃ report ∈ (deploy { breaksDown := some 0 } "first" false "done" g
        { registry := {}, cancelled := true }).1.subgraphs, report.status = .failed .task := by
  obtain ⟨g, plan, relays, -, -, -, planned⟩ := OrchestrationGraph.exists_relays
  have broken : (OrchestrationGraph.relays.map fun g => (deploy { breaksDown := some 0 } "first" false
      "done" g { registry := {}, cancelled := true }).1.subgraphs[0]?.map (·.status)) =
        some (some (.failed .task)) := by decide +kernel
  rw [relays, Option.map_some, Option.some_inj] at broken
  obtain ⟨report, reported, failed⟩ := Option.map_eq_some_iff.mp broken
  exact ⟨g, plan, relays, planned, report, List.mem_of_getElem? reported, failed⟩

end RestWiring

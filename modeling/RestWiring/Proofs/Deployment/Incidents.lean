import RestWiring.Proofs.Deployment.Contacts
import RestWiring.Proofs.Deployment.Phases
import RestWiring.Proofs.Deployment.Schedules

/-!
# Incidents

While a graph is deployed, a log is kept of what passes between its components and the backend. Besides
all that happens meanwhile, the tasks of components may break down on the way, any of them and at any
time. Each incident moves at most one component; what such moves preserve of a component, together with
what has passed between it and the backend, holds throughout every run.
-/
namespace RestWiring

/-! ## Recorded deployments -/

/-- What can happen while a graph is deployed: a task takes a turn, someone else makes a call, or
failures are injected. -/
inductive Happening where
  | turn (turn : Turn)
  | call (call : Call)
  | inject (construct : String) (times : Option Nat)

/-- A deployment with a log of what has passed between its components and the backend. -/
structure Recorded where
  deployment : Deployment
  log : List (Nat × Contact)

/-- What passes between a component and the backend in a turn. -/
def Deployment.contact? (settings : DeploymentSettings) (d : Deployment) : Turn → Option (Nat × Contact)
  | .cancel => none
  | .task place turn =>
    (d.runners[place]?.bind fun r => r.activity.contact? settings turn d.world).map (place, ·)

namespace Recorded

def begin (settings : DeploymentSettings) (channel : String) (g : OrchestrationGraph) (w : World) :
    Recorded := ⟨.begin settings channel g w, []⟩

def withRegistry (s : Recorded) (registry : Registry) : Recorded :=
  { s with deployment := { s.deployment with world := { s.deployment.world with registry } } }

def happen? (settings : DeploymentSettings) (s : Recorded) : Happening → Option Recorded
  | .turn turn => (s.deployment.take? settings turn).map fun d =>
    ⟨d, s.log ++ (s.deployment.contact? settings turn).toList⟩
  | .call call => some (s.withRegistry (s.deployment.world.registry.perform call).2)
  | .inject construct times => some (s.withRegistry (s.deployment.world.registry.inject construct times))

def happenAll? (settings : DeploymentSettings) : List Happening → Recorded → Option Recorded
  | [], s => some s
  | h :: happenings, s => (s.happen? settings h).bind (happenAll? settings happenings)

end Recorded

/-- What can come upon a deployment: something happens, or the task of a component breaks down. -/
inductive Incident where
  | happening (h : Happening)
  | breakDown (place : Nat)

/-- Whether an incident is the deployment's own, and not that of others who use the backend. -/
def Incident.Own : Incident → Prop
  | .happening (.turn _) | .breakDown _ => True
  | .happening _ => False

namespace Recorded

/-- Breaks down the task of a component; only components that are planned have tasks, until these are
over. -/
def breakDown? (s : Recorded) (place : Nat) : Option Recorded :=
  match s.deployment.runners[place]? with
  | some r =>
    if r.plan.isSome && r.ended?.isNone then
      let runners := s.deployment.runners.set place { r with activity := .over none }
      some { s with deployment := { s.deployment with runners } }
    else none
  | none => none

def befall? (settings : DeploymentSettings) (s : Recorded) : Incident → Option Recorded
  | .happening h => s.happen? settings h
  | .breakDown place => s.breakDown? place

def befallAll? (settings : DeploymentSettings) : List Incident → Recorded → Option Recorded
  | [], s => some s
  | x :: incidents, s => (s.befall? settings x).bind (befallAll? settings incidents)

end Recorded

variable {settings : DeploymentSettings} {g : OrchestrationGraph} {channel deploymentId : String}
  {w : World} {place other : Nat} {s s' : Recorded} {d : Deployment} {r : Runner} {x : Incident}
  {incidents : List Incident} {contact : Contact} {job : Job} {log before : List (Nat × Contact)}

/-- A deployment may be recorded. -/
theorem Deployment.takeAll?_recorded {d' : Deployment} {turns : List Turn}
    (taken : d.takeAll? settings turns = some d') (log : List (Nat × Contact)) :
    ∃ log', Recorded.happenAll? settings (turns.map .turn) ⟨d, log⟩ = some ⟨d', log'⟩ := by
  induction turns generalizing d log with
  | nil =>
    cases taken
    exact ⟨log, rfl⟩
  | cons turn turns ih =>
    obtain ⟨next, first, rest⟩ := Option.bind_eq_some_iff.mp taken
    obtain ⟨log', recorded⟩ := ih rest (log ++ (d.contact? settings turn).toList)
    refine ⟨log', ?_⟩
    rw [List.map_cons, Recorded.happenAll?, Recorded.happen?, first]
    exact recorded

/-- What has passed between one component and the backend. -/
def contactsOf (log : List (Nat × Contact)) (place : Nat) : List Contact :=
  (log.filter (·.1 = place)).map (·.2)

theorem mem_contactsOf : contact ∈ contactsOf log place ↔ (place, contact) ∈ log := by
  simp [contactsOf]

theorem contactsOf_snoc (log : List (Nat × Contact)) (place : Nat) (made : Option Contact) :
    contactsOf (log ++ (made.map (place, ·)).toList) place = contactsOf log place ++ made.toList := by
  cases made <;> simp [contactsOf, List.filter_append]

theorem contactsOf_snoc_of_ne (different : other ≠ place) (made : Option Contact) :
    contactsOf (log ++ (made.map (place, ·)).toList) other = contactsOf log other := by
  cases made <;> simp [contactsOf, List.filter_append, different.symm]

theorem contactsOf_initial (first : before ++ [(place, contact)] <+: log) :
    contactsOf before place ++ [contact] <+: contactsOf log place := by
  have kept := (first.filter (·.1 = place)).map (·.2)
  simpa [contactsOf, List.filter_append] using kept

/-- The jobs that a component has done. -/
def doneBy (log : List (Nat × Contact)) (place : Nat) : List Job :=
  (contactsOf log place).filterMap Contact.success?

theorem mem_doneBy : job ∈ doneBy log place ↔ (place, .succeeded job) ∈ log := by
  simp [doneBy, Contact.success?_eq_some, mem_contactsOf]

/-! ## Moves -/

/-- What an incident does: a component takes a step or its task breaks down, or only the world
changes. -/
inductive Recorded.Moves (settings : DeploymentSettings) : Incident → Recorded → Recorded → Prop
  | step {d : Deployment} {log : List (Nat × Contact)} {place : Nat} {turn : TaskTurn} {r : Runner}
      {made : Option Contact} {activity : Activity} {world : World}
      (found : d.runners[place]? = some r)
      (step : Activity.Step settings r.index r.stages r.activity d.world made activity world) :
      Moves settings (.happening (.turn (.task place turn))) ⟨d, log⟩
        ⟨⟨d.runners.set place { r with activity }, world⟩, log ++ (made.map (place, ·)).toList⟩
  | breakDown {d : Deployment} {log : List (Nat × Contact)} {place : Nat} {r : Runner}
      (found : d.runners[place]? = some r) (task : r.plan ≠ none) :
      Moves settings (.breakDown place) ⟨d, log⟩
        ⟨⟨d.runners.set place { r with activity := .over none }, d.world⟩, log⟩
  | cancel {d : Deployment} {log : List (Nat × Contact)} :
      Moves settings (.happening (.turn .cancel)) ⟨d, log⟩
        ⟨⟨d.runners, { d.world with cancelled := true }⟩, log⟩
  | call {s : Recorded} {call : Call} :
      Moves settings (.happening (.call call)) s
        (s.withRegistry (s.deployment.world.registry.perform call).2)
  | inject {s : Recorded} {construct : String} {times : Option Nat} :
      Moves settings (.happening (.inject construct times)) s
        (s.withRegistry (s.deployment.world.registry.inject construct times))

namespace Recorded

theorem moves_of_befall? (befallen : s.befall? settings x = some s') : Moves settings x s s' := by
  obtain ⟨d, log⟩ := s
  rcases x with ⟨turn | call | ⟨construct, times⟩⟩ | place
  · obtain ⟨d', taken, rfl⟩ := Option.map_eq_some_iff.mp befallen
    cases turn with
    | cancel =>
      cases taken
      simp only [Deployment.contact?, Option.toList_none, List.append_nil]
      exact .cancel
    | task place turn =>
      obtain ⟨r, activity, world, found, moved, rfl⟩ := Deployment.take?_task taken
      simp only [Deployment.contact?, found, Option.bind_some]
      exact .step found (Activity.step_of_take? moved)
  · cases befallen
    exact .call
  · cases befallen
    exact .inject
  · simp only [befall?, breakDown?] at befallen
    split at befallen
    · rename_i r found
      split at befallen
      · rename_i task
        cases befallen
        rw [Bool.and_eq_true] at task
        exact .breakDown found (Option.isSome_iff_ne_none.mp task.1)
      · cases befallen
    · cases befallen

/-- What all incidents of some sort preserve holds after any number of them. -/
theorem befallAll?_induction (holds : Recorded → Prop) (sort : Incident → Prop) (start : holds s)
    (each : ∀ {x s s'}, sort x → holds s → Moves settings x s s' → holds s')
    (only : ∀ x ∈ incidents, sort x) (befallen : s.befallAll? settings incidents = some s') :
    holds s' := by
  induction incidents generalizing s with
  | nil =>
    cases befallen
    exact start
  | cons x incidents ih =>
    obtain ⟨next, first, rest⟩ := Option.bind_eq_some_iff.mp befallen
    have kept := each (only x List.mem_cons_self) start (moves_of_befall? first)
    exact ih kept (fun x member => only x (List.mem_cons_of_mem _ member)) rest

theorem befallAll?_append {later : List Incident} {s'' : Recorded}
    (first : s.befallAll? settings incidents = some s')
    (second : s'.befallAll? settings later = some s'') :
    s.befallAll? settings (incidents ++ later) = some s'' := by
  induction incidents generalizing s with
  | nil =>
    cases first
    exact second
  | cons x incidents ih =>
    obtain ⟨next, here, rest⟩ := Option.bind_eq_some_iff.mp first
    exact Option.bind_eq_some_iff.mpr ⟨next, here, ih rest⟩

/-- Happenings are incidents. -/
theorem befallAll?_happenings (happenings : List Happening) (s : Recorded) :
    s.befallAll? settings (happenings.map .happening) = s.happenAll? settings happenings := by
  induction happenings generalizing s with
  | nil => rfl
  | cons h happenings ih =>
    rw [List.map_cons, befallAll?, happenAll?, funext ih]
    rfl

/-- The program's own schedule makes a deployment take turns until it has an outcome. -/
theorem deploy_turns (settings : DeploymentSettings) (deploymentId channel : String)
    (g : OrchestrationGraph) (w : World) :
    ∃ (turns : List Turn) (s : Recorded),
      (begin settings channel g w).befallAll? settings ((turns.map .turn).map .happening) = some s ∧
      s.deployment.outcome? settings deploymentId channel =
        some ((deploy settings deploymentId false channel g w).1,
          (deploy settings deploymentId false channel g w).2.1) := by
  obtain ⟨turns, -, d, taken, ended⟩ := deploy_endsIn settings deploymentId channel g w
  obtain ⟨log, recorded⟩ := Deployment.takeAll?_recorded taken []
  exact ⟨turns, ⟨d, log⟩, (befallAll?_happenings _ _).trans recorded, ended⟩

/-- The program's own schedule is one of the ways in which a deployment may go. -/
theorem deploy_befallen (settings : DeploymentSettings) (deploymentId channel : String)
    (g : OrchestrationGraph) (w : World) :
    ∃ incidents s, (∀ x ∈ incidents, x.Own) ∧
      (begin settings channel g w).befallAll? settings incidents = some s ∧
      s.deployment.outcome? settings deploymentId channel =
        some ((deploy settings deploymentId false channel g w).1,
          (deploy settings deploymentId false channel g w).2.1) := by
  obtain ⟨turns, s, befallen, ended⟩ := deploy_turns settings deploymentId channel g w
  refine ⟨_, s, fun x member => ?_, befallen, ended⟩
  rw [List.map_map] at member
  obtain ⟨turn, -, rfl⟩ := List.mem_map.mp member
  trivial

/-! ## What holds of every component -/

/-- Whether something holds of all components and what has passed between them and the backend. -/
def Throughout (holds : Nat → Runner → List Contact → Prop) (s : Recorded) : Prop :=
  ∀ place r, s.deployment.runners[place]? = some r → holds place r (contactsOf s.log place)

/-- A move preserves what the step of a component preserves, and what stays when its task breaks
down. -/
theorem Moves.throughout {holds : Nat → Runner → List Contact → Prop} (moves : Moves settings x s s')
    (all : s.Throughout holds)
    (step : ∀ {place r made activity world}, s.deployment.runners[place]? = some r →
      holds place r (contactsOf s.log place) →
      Activity.Step settings r.index r.stages r.activity s.deployment.world made activity world →
      holds place { r with activity } (contactsOf s.log place ++ made.toList))
    (breakDown : ∀ {place r mine}, x = .breakDown place → holds place r mine → r.plan ≠ none →
      holds place { r with activity := .over none } mine) : s'.Throughout holds := by
  cases moves with
  | step found taken =>
    intro other r' found'
    rcases getElem?_set_cases found' with ⟨rfl, rfl⟩ | ⟨different, found'⟩
    · rw [contactsOf_snoc]
      exact step found (all _ _ found) taken
    · rw [contactsOf_snoc_of_ne different]
      exact all _ _ found'
  | breakDown found task =>
    intro other r' found'
    rcases getElem?_set_cases found' with ⟨rfl, rfl⟩ | ⟨different, found'⟩
    · exact breakDown rfl (all _ _ found) task
    · exact all _ _ found'
  | cancel | call | inject => exact all

/-- Incidents change neither what is deployed nor how. -/
theorem Moves.assignments (moves : Moves settings x s s') :
    s'.deployment.runners.map Runner.assignment = s.deployment.runners.map Runner.assignment := by
  cases moves with
  | step found | breakDown found => exact map_set_of_eq found rfl
  | cancel | call | inject => rfl

theorem befallAll?_assigned (befallen : (begin settings channel g w).befallAll? settings incidents =
    some s) : s.deployment.runners.map Runner.assignment = (g.planned channel).map assignmentOf :=
  befallAll?_induction
    (fun s => s.deployment.runners.map Runner.assignment = (g.planned channel).map assignmentOf)
    (fun _ => True) (Deployment.begin_assignments settings channel g w)
    (fun _ assigned moves => moves.assignments.trans assigned) (fun _ _ => trivial) befallen

/-! ## What holds of the log and the backend -/

/-- Only components make contact with the backend. -/
theorem Moves.placed (moves : Moves settings x s s')
    (placed : ∀ e ∈ s.log, e.1 < s.deployment.runners.length) :
    ∀ e ∈ s'.log, e.1 < s'.deployment.runners.length := by
  cases moves with
  | @step d log place _ r made _ _ found =>
    intro e member
    rw [List.length_set]
    rcases List.mem_append.mp member with earlier | last
    · exact placed e earlier
    · obtain ⟨contact, -, rfl⟩ := Option.map_eq_some_iff.mp (Option.mem_toList.mp last)
      exact (List.getElem?_eq_some_iff.mp found).1
  | breakDown =>
    intro e member
    rw [List.length_set]
    exact placed e member
  | cancel | call | inject => exact placed

theorem befallAll?_placed
    (befallen : (begin settings channel g w).befallAll? settings incidents = some s) :
    ∀ e ∈ s.log, e.1 < s.deployment.runners.length :=
  befallAll?_induction (fun s => ∀ e ∈ s.log, e.1 < s.deployment.runners.length) (fun _ => True)
    (List.forall_mem_nil _) (fun _ placed moves => moves.placed placed) (fun _ _ => trivial) befallen

/-- Constructs stay where nobody tears the backend down. -/
theorem Moves.contains {key : ConstructKey} (moves : Moves settings x s s')
    (standing : x ≠ .happening (.call .tearDown))
    (present : s.deployment.world.registry.constructs.contains key = true) :
    s'.deployment.world.registry.constructs.contains key = true := by
  cases moves with
  | step _ step => exact step.contains present
  | call => exact Registry.perform_contains (fun same => standing (by rw [same])) present
  | breakDown | cancel | inject => exact present

theorem befallAll?_contains {key : ConstructKey} (befallen : s.befallAll? settings incidents = some s')
    (standing : .happening (.call .tearDown) ∉ incidents)
    (present : s.deployment.world.registry.constructs.contains key = true) :
    s'.deployment.world.registry.constructs.contains key = true :=
  befallAll?_induction (fun s => s.deployment.world.registry.constructs.contains key = true)
    (· ≠ .happening (.call .tearDown)) present (fun standing present moves => moves.contains standing present)
    (fun _ member same => standing (same ▸ member)) befallen

end Recorded

end RestWiring

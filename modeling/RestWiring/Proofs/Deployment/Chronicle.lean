import RestWiring.Proofs.Deployment.Cancellation
import RestWiring.Proofs.Deployment.Events
import RestWiring.Proofs.Deployment.Progress

/-!
# What a deployment tells while it runs

The events of a deployment are told by its components in turns, and all its components draw on one
backend. What is told of one component is what this one has come to, whatever the others do; what is told
of the backend, together with what is about to be told, is what the answers of the backend have given rise
to. Those who are told of events do not fail, so that tasks break down only while they work.
-/
namespace RestWiring

open DeploymentEvent (Detail)

variable {settings : DeploymentSettings} {channel : String} {g : OrchestrationGraph} {place : Nat}
  {activity : Activity} {w w' : World} {made : Option Contact} {told due : List DeploymentEvent}
  {r : Runner} {mine : List Contact} {s s' : Recorded} {x : Incident} {incidents : List Incident}

/-! ## What an incident tells -/

/-- What the start of a component tells; a component that is not planned does not start. -/
def Runner.opening (r : Runner) : List DeploymentEvent :=
  if r.plan.isSome then [.subgraphStarted r.index] else []

def Runner.life (r : Runner) : List DeploymentEvent := r.activity.life r.index r.opening

/-- What holds of every component throughout a deployment. -/
structure Proceeds (place : Nat) (r : Runner) (mine : List Contact) : Prop where
  numbered : r.index = place
  unplanned : r.plan = none → ∃ e, r.activity = .closing (.failed e) ∨ r.activity = .over (some (.failed e))
  detailed : ∀ e ∈ r.activity.pending, e.Detail
  settles : r.activity.Settles
  follows : r.activity = .over none ∨ r.activity.Follows r.stages (mine.filterMap Contact.success?)

theorem Proceeds.opening (proceeds : Proceeds place r mine) (fresh : r.activity = .fresh) :
    r.opening = [.subgraphStarted r.index] := by
  unfold Runner.opening
  cases planned : r.plan with
  | some p => rfl
  | none =>
    obtain ⟨e, closing | closed⟩ := proceeds.unplanned planned
    · cases fresh.symm.trans closing
    · cases fresh.symm.trans closed

theorem Proceeds.step (proceeds : Proceeds place r mine)
    (step : Activity.Step settings r.index r.stages r.activity w made activity w') :
    Proceeds place { r with activity } (mine ++ made.toList) where
  numbered := proceeds.numbered
  unplanned := by
    intro unplanned
    obtain ⟨e, closing | closed⟩ := proceeds.unplanned unplanned
    · rw [closing] at step
      cases step
      exact ⟨e, .inr rfl⟩
    · rw [closed] at step
      cases step
  detailed := step.detailed proceeds.detailed
  settles := proceeds.settles.step step
  follows := by
    rcases proceeds.follows with broken | follows
    · rw [broken] at step
      cases step
    · rw [List.filterMap_append]
      exact .inr (step.follows follows)

namespace Recorded

theorem begin_proceeds (settings : DeploymentSettings) (channel : String) (g : OrchestrationGraph)
    (w : World) : (begin settings channel g w).Throughout Proceeds := by
  intro place r found
  rw [begin, Deployment.begin, List.getElem?_map] at found
  obtain ⟨⟨index, component, result⟩, listed, rfl⟩ := Option.map_eq_some_iff.mp found
  cases OrchestrationGraph.index_of_getElem?_planned listed
  cases result with
  | ok p =>
    refine ⟨rfl, fun unplanned => ?_, List.forall_mem_nil _, trivial, .inr rfl⟩
    cases unplanned
  | error e =>
    refine ⟨rfl, fun _ => ⟨e, .inl rfl⟩, List.forall_mem_nil _, fun planned => ?_, .inr ?_⟩
    · cases planned
    · exact ⟨⟨false, [], []⟩, [], [], [], [], rfl, .nil, .nil, rfl⟩

theorem Moves.proceeds (moves : Moves settings x s s') (proceeds : s.Throughout Proceeds) :
    s'.Throughout Proceeds := by
  refine moves.throughout proceeds (fun _ proceeds step => proceeds.step step) fun _ proceeds task => ?_
  exact ⟨proceeds.numbered, fun unplanned => absurd unplanned task, List.forall_mem_nil _, trivial,
    .inl rfl⟩

end Recorded

namespace Recorded

/-- How often an event is about to be told. -/
def pending (s : Recorded) (e : DeploymentEvent) : Nat :=
  (s.deployment.runners.map fun r => r.activity.pending.count e).sum

/-- The ends of the edges that the jobs done so far have wired. -/
def wired (s : Recorded) : List (String × String) :=
  s.log.filterMap fun entry => entry.2.success?.bind Job.edge?

def constructs (s : Recorded) : Constructs := s.deployment.world.registry.constructs

/-- Whether an incident can come upon a deployment while nobody fails who is told of its events: tasks
break down only while they work. -/
def Admits (s : Recorded) : Incident → Prop
  | .happening _ => True
  | .breakDown place =>
    ∀ r, s.deployment.runners[place]? = some r → ∃ work, r.activity = .working work

/-- Whether incidents can come upon a deployment, one after another, while nobody fails who is told of
its events. -/
def AdmitsAll (settings : DeploymentSettings) : List Incident → Recorded → Prop
  | [], _ => True
  | x :: incidents, s =>
    s.Admits x ∧ ∀ s', s.befall? settings x = some s' → AdmitsAll settings incidents s'

end Recorded

/-- Whether an incident is a call that somebody else makes. -/
def Incident.Foreign : Incident → Prop
  | .happening (.call _) => True
  | .happening (.turn _) | .happening (.inject ..) | .breakDown _ => False

namespace Recorded

/-- What all incidents that are admitted preserve holds after any number of them. -/
theorem befallAll?_admitted (holds : Recorded → Prop) (sort : Incident → Prop) (start : holds s)
    (each : ∀ {x s s'}, sort x → s.Admits x → holds s → Moves settings x s s' → holds s')
    (only : ∀ x ∈ incidents, sort x) (admitted : s.AdmitsAll settings incidents)
    (befallen : s.befallAll? settings incidents = some s') : holds s' := by
  induction incidents generalizing s with
  | nil =>
    cases befallen
    exact start
  | cons x incidents ih =>
    obtain ⟨next, first, rest⟩ := Option.bind_eq_some_iff.mp befallen
    obtain ⟨here, later⟩ := admitted
    have kept := each (only x List.mem_cons_self) here start (moves_of_befall? first)
    exact ih kept (fun x member => only x (List.mem_cons_of_mem _ member)) (later next first) rest

theorem admitsAll_happenings (happenings : List Happening) (s : Recorded) :
    s.AdmitsAll settings (happenings.map .happening) := by
  induction happenings generalizing s with
  | nil => trivial
  | cons h happenings ih => exact ⟨trivial, fun s' _ => ih s'⟩

/-- What comes to pass in an incident: what is told of the backend has been due before, and what is told
of a component is what it has come to. -/
structure Tells (x : Incident) (s s' : Recorded) (told due : List DeploymentEvent) : Prop where
  events : s'.deployment.world.events = s.deployment.world.events ++ told
  size : s'.deployment.runners.length = s.deployment.runners.length
  balance : ∀ e : DeploymentEvent, e.Detail →
    told.count e + s'.pending e = s.pending e + due.count e
  lives : ∀ {place : Nat} {r' : Runner}, s'.deployment.runners[place]? = some r' →
    ∃ r, s.deployment.runners[place]? = some r ∧
      r'.life = r.life ++ told.filter (·.index? = some place)
  within : ∀ e ∈ told, e.Within s.deployment.runners.length
  wired : ∀ start target, s'.wired.count (start, target) =
    s.wired.count (start, target) + due.count (.edgeWired start target)
  created : ¬ x.Foreign → Named s.constructs → Named s'.constructs ∧
    ∀ key, due.count (.constructRegistered key.1 key.2 .created) +
      (s.constructs.contains key).toNat = (s'.constructs.contains key).toNat

/-- An incident that leaves alone what is told of the components, and does no job. -/
theorem Tells.still {runners : List Runner} {world : World} {log : List (Nat × Contact)}
    (events : world.events = s.deployment.world.events)
    (pending : runners.map (·.activity.pending) = s.deployment.runners.map (·.activity.pending))
    (lives : runners.map Runner.life = s.deployment.runners.map Runner.life)
    (logged : log = s.log)
    (same : ¬ x.Foreign → world.registry.constructs = s.constructs) :
    s.Tells x ⟨⟨runners, world⟩, log⟩ [] [] where
  events := by rw [events, List.append_nil]
  size := by simpa using congrArg List.length lives
  balance := by
    intro e _
    have counts := congrArg (List.map (List.count e)) pending
    rw [List.map_map, List.map_map] at counts
    have sums : Recorded.pending ⟨⟨runners, world⟩, log⟩ e = s.pending e := congrArg List.sum counts
    rw [sums, List.count_nil, Nat.zero_add, Nat.add_zero]
  lives := by
    intro place r' found
    have there := congrArg (·[place]?) lives
    simp only [List.getElem?_map] at there
    dsimp only at found
    rw [found, Option.map_some] at there
    obtain ⟨r, here, equal⟩ := Option.map_eq_some_iff.mp there.symm
    exact ⟨r, here, by simp [equal]⟩
  within := nofun
  wired := by simp [Recorded.wired, logged]
  created := by
    intro own named
    have kept : (⟨⟨runners, world⟩, log⟩ : Recorded).constructs = s.constructs := same own
    rw [kept]
    exact ⟨named, fun key => by simp⟩

theorem Moves.tells (moves : Moves settings x s s') (admitted : s.Admits x)
    (steady : settings.breaksDown = none) (proceeds : s.Throughout Proceeds) :
    ∃ told due, s.Tells x s' told due := by
  cases moves with
  | @step d log place turn r made activity world found step =>
    have proceeds := proceeds place r found
    obtain ⟨told, due, tells⟩ := step.tells (by simp [steady]) proceeds.opening proceeds.detailed
    obtain ⟨inside, -⟩ := List.getElem?_eq_some_iff.mp found
    refine ⟨told, due, ?_⟩
    exact {
      events := tells.events
      size := List.length_set ..
      balance := by
        intro e detail
        have here := tells.balance e detail
        have sums := @sum_set place _ _ r { r with activity } (·.activity.pending.count e) found
        simp only [pending] at sums ⊢
        omega
      lives := by
        intro other r' found'
        rcases getElem?_set_cases found' with ⟨rfl, rfl⟩ | ⟨different, found'⟩
        · refine ⟨r, found, ?_⟩
          rw [← proceeds.numbered]
          exact tells.lives
        · refine ⟨r', found', ?_⟩
          have untold : told.filter (·.index? = some other) = [] := by
            apply List.filter_eq_nil_iff.mpr
            intro e member here
            have here := of_decide_eq_true here
            rcases tells.own e member with detail | own
            · cases detail.index?.symm.trans here
            · cases own.symm.trans here
              exact different proceeds.numbered
          rw [untold, List.append_nil]
      within := by
        intro e member
        rcases tells.own e member with detail | own
        · exact detail.within _
        · exact DeploymentEvent.within_of_index? own (proceeds.numbered ▸ inside)
      wired := by
        intro start target
        rw [tells.answers.wired, Recorded.wired, Recorded.wired, List.filterMap_append,
          List.count_append]
        cases made <;> rfl
      created := fun _ => tells.answers.created }
  | @breakDown d log place r found task =>
    obtain ⟨work, working⟩ := admitted r found
    refine ⟨[], [], .still rfl ?_ ?_ rfl fun _ => rfl⟩
    · exact map_set_of_eq found (by rw [working]; rfl)
    · exact map_set_of_eq found (by rw [Runner.life, Runner.life, working]; rfl)
  | cancel => exact ⟨[], [], .still rfl rfl rfl rfl fun _ => rfl⟩
  | call => exact ⟨[], [], .still rfl rfl rfl rfl fun own => absurd trivial own⟩
  | inject => exact ⟨[], [], .still rfl rfl rfl rfl fun _ => rfl⟩

/-! ## What a run tells -/

/-- The story that a deployment has told since it began. What it has created is known while nobody else
calls the backend. -/
structure Chronicle (w : World) (alone : Prop) (s : Recorded) (story : List DeploymentEvent) : Prop where
  events : s.deployment.world.events =
    w.events ++ .deploymentStarted s.deployment.runners.length false :: story
  within : ∀ e ∈ story, e.Within s.deployment.runners.length
  lives : ∀ {place : Nat} {r : Runner}, s.deployment.runners[place]? = some r →
    r.life = story.filter (·.index? = some place)
  wired : ∀ start target, story.count (.edgeWired start target) +
    s.pending (.edgeWired start target) = s.wired.count (start, target)
  created : alone → Named s.constructs ∧ ∀ key : ConstructKey,
    story.count (.constructRegistered key.1 key.2 .created) +
      s.pending (.constructRegistered key.1 key.2 .created) +
        (w.registry.constructs.contains key).toNat = (s.constructs.contains key).toNat

theorem pending_eq_zero (idle : ∀ r ∈ s.deployment.runners, r.activity.pending = [])
    (e : DeploymentEvent) : s.pending e = 0 := by
  have counts : s.deployment.runners.map (fun r => r.activity.pending.count e) =
      s.deployment.runners.map fun _ => 0 :=
    List.map_congr_left fun r listed => by rw [idle r listed, List.count_nil]
  rw [pending, counts, List.map_const', List.sum_replicate_nat, Nat.mul_zero]

namespace Chronicle

variable {story : List DeploymentEvent} {alone : Prop}

theorem begin (settings : DeploymentSettings) (channel : String) (g : OrchestrationGraph)
    (named : Named w.registry.constructs) :
    (Recorded.begin settings channel g w).Chronicle w alone [] := by
  have first {r : Runner} (member : r ∈ (Deployment.begin settings channel g w).runners) :
      r.life = [] ∧ r.activity.pending = [] := by
    obtain ⟨⟨index, component, result⟩, -, rfl⟩ := List.mem_map.mp member
    cases result <;> exact ⟨rfl, rfl⟩
  have idle (e : DeploymentEvent) : (Recorded.begin settings channel g w).pending e = 0 :=
    pending_eq_zero (fun r member => (first member).2) e
  exact {
    events := by simp [Recorded.begin, Deployment.begin, World.record]
    within := nofun
    lives := fun found => (first (List.mem_of_getElem? found)).1
    wired := fun start target => by rw [idle]; rfl
    created := fun _ => ⟨named, fun key => by rw [idle, List.count_nil, Nat.zero_add]; rfl⟩ }

theorem tells (chronicle : s.Chronicle w alone story) (tells : s.Tells x s' told due)
    (own : alone → ¬ x.Foreign) : s'.Chronicle w alone (story ++ told) where
  events := by
    rw [tells.events, chronicle.events, tells.size, List.append_assoc, List.cons_append]
  within := by
    intro e member
    rw [tells.size]
    rcases List.mem_append.mp member with earlier | here
    · exact chronicle.within e earlier
    · exact tells.within e here
  lives := by
    intro place r' found
    obtain ⟨r, before, lives⟩ := tells.lives found
    rw [lives, chronicle.lives before, List.filter_append]
  wired := by
    intro start target
    have before := chronicle.wired start target
    have balance := tells.balance (.edgeWired start target) trivial
    rw [List.count_append, tells.wired]
    omega
  created := by
    intro alone
    obtain ⟨named, before⟩ := chronicle.created alone
    obtain ⟨named', created⟩ := tells.created (own alone) named
    refine ⟨named', fun key => ?_⟩
    have before := before key
    have created := created key
    have balance := tells.balance (.constructRegistered key.1 key.2 .created) trivial
    rw [List.count_append]
    omega

/-- Every run that is admitted tells a story. -/
theorem exists_of_befallAll? (steady : settings.breaksDown = none) (named : Named w.registry.constructs)
    (own : alone → ∀ x ∈ incidents, ¬ x.Foreign)
    (admitted : (Recorded.begin settings channel g w).AdmitsAll settings incidents)
    (befallen : (Recorded.begin settings channel g w).befallAll? settings incidents = some s) :
    s.Throughout Proceeds ∧ ∃ story, s.Chronicle w alone story := by
  refine befallAll?_admitted (fun s => s.Throughout Proceeds ∧ ∃ story, s.Chronicle w alone story)
    (fun x => alone → ¬ x.Foreign) ?_ ?_ (fun x member alone => own alone x member) admitted befallen
  · exact ⟨begin_proceeds settings channel g w, [], .begin settings channel g named⟩
  · intro x s s' own admitted kept moves
    obtain ⟨proceeds, story, chronicle⟩ := kept
    obtain ⟨told, due, tells⟩ := moves.tells admitted steady proceeds
    exact ⟨moves.proceeds proceeds, story ++ told, chronicle.tells tells own⟩

end Chronicle

end Recorded

end RestWiring
